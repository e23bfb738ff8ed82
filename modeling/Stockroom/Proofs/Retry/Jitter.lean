import Stockroom.Proofs.Ledger.Settings

/-! How far a drawn wait spans the ceiling. The waits that can be drawn are those up to what the
ceiling leaves of whole 64-bit words, so they span it just if it is less than one word. Only a cap
can bring a ceiling beyond that: what grows by the multiplier stays a word. -/
namespace Stockroom
set_option autoImplicit false

theorem Duration.eq_of_nanos_eq {a b : Duration} (h : a.nanos = b.nanos) : a = b := by
  cases a
  cases b
  cases h
  rfl

namespace RetryPolicy

/-- The waits that can be drawn after a failed attempt are exactly those from
none up to the ceiling. -/
def Spans (p : RetryPolicy) (attempt : Nat) : Prop :=
  ∀ wait : Duration, (∃ draw, p.jitteredBackoff attempt draw = wait) ↔
    wait.nanos ≤ (p.backoffCeiling attempt).nanos

variable {p : RetryPolicy} {attempt : Nat}

theorem jitterBound_lt (p : RetryPolicy) (attempt : Nat) : p.jitterBound attempt < wordBound :=
  Nat.mod_lt _ (by decide)

theorem nanos_lt_of_word {n : Nat} (h : n < wordBound) : n < Duration.bound := by
  unfold wordBound at h
  unfold Duration.bound
  omega

theorem nanos_jitteredBackoff (p : RetryPolicy) (attempt : Nat)
    (draw : (bound : Nat) → Fin (bound + 1)) :
    (p.jitteredBackoff attempt draw).nanos = draw (p.jitterBound attempt) := by
  have s1 := p.jitterBound_lt attempt
  have s2 := (draw (p.jitterBound attempt)).isLt
  unfold jitteredBackoff
  split
  · show 0 = _
    omega
  · exact Duration.nanos_ofNanos (nanos_lt_of_word (by omega))

theorem exists_jitteredBackoff_iff {wait : Duration} :
    (∃ draw, p.jitteredBackoff attempt draw = wait) ↔ wait.nanos ≤ p.jitterBound attempt := by
  constructor
  · rintro ⟨draw, rfl⟩
    rw [nanos_jitteredBackoff]
    exact Nat.le_of_lt_succ (draw (p.jitterBound attempt)).isLt
  · intro h
    refine ⟨fun bound => Fin.ofNat (bound + 1) wait.nanos, Duration.eq_of_nanos_eq ?_⟩
    rw [nanos_jitteredBackoff, Fin.val_ofNat, Nat.mod_eq_of_lt (Nat.lt_succ_of_le h)]

theorem spans_iff : p.Spans attempt ↔ (p.backoffCeiling attempt).nanos < wordBound := by
  constructor
  · intro spans
    -- the ceiling itself is one of the waits
    have top := exists_jitteredBackoff_iff.1 ((spans _).2 (Nat.le_refl _))
    exact Nat.lt_of_le_of_lt top (p.jitterBound_lt attempt)
  · intro h wait
    rw [exists_jitteredBackoff_iff, jitterBound, Nat.mod_eq_of_lt h]

theorem backoffCeiling_eq_or_lt (p : RetryPolicy) (attempt : Nat) :
    p.backoffCeiling attempt = p.maxBackoff ∨ (p.backoffCeiling attempt).nanos < wordBound := by
  unfold backoffCeiling
  dsimp only
  split
  · exact .inl rfl
  · refine .inr ?_
    have word (x : UInt64) : x.toNat < wordBound := x.toNat_lt
    rw [Duration.nanos_ofNanos (nanos_lt_of_word (word _))]
    exact word _

/-- How the waits after a failed attempt stand to their ceiling. -/
structure Jitters (p : RetryPolicy) (attempt : Nat) : Prop where
  /-- The nanoseconds of a wait are the number that a run of attempts draws. -/
  nanos_eq : ∀ draw, (p.jitteredBackoff attempt draw).nanos = draw (p.jitterBound attempt)
  drawn_iff : ∀ wait, (∃ draw, p.jitteredBackoff attempt draw = wait) ↔
    wait.nanos ≤ (p.backoffCeiling attempt).nanos % wordBound
  within : ∀ draw, (p.jitteredBackoff attempt draw).nanos ≤ (p.backoffCeiling attempt).nanos
  bound_eq_iff : p.jitterBound attempt = (p.backoffCeiling attempt).nanos ↔
    (p.backoffCeiling attempt).nanos < wordBound
  spans_iff : p.Spans attempt ↔ (p.backoffCeiling attempt).nanos < wordBound
  /-- Where the waits do not span it, the ceiling is a cap of a word or more. -/
  capped : ¬p.Spans attempt →
    p.backoffCeiling attempt = p.maxBackoff ∧ wordBound ≤ p.maxBackoff.nanos

theorem jitters (p : RetryPolicy) (attempt : Nat) : p.Jitters attempt where
  nanos_eq := p.nanos_jitteredBackoff attempt
  drawn_iff _ := exists_jitteredBackoff_iff
  within draw := by
    have bound : (p.jitteredBackoff attempt draw).nanos ≤ p.jitterBound attempt :=
      exists_jitteredBackoff_iff.1 ⟨draw, rfl⟩
    exact Nat.le_trans bound (Nat.mod_le _ _)
  bound_eq_iff := ⟨fun h => h ▸ p.jitterBound_lt attempt, Nat.mod_eq_of_lt⟩
  spans_iff := spans_iff
  capped no := by
    rw [spans_iff, Nat.not_lt] at no
    rcases p.backoffCeiling_eq_or_lt attempt with cap | word
    · exact ⟨cap, cap ▸ no⟩
    · omega

/-- Every span is the ceiling of some policy, one whose backoff has grown out of range. -/
theorem exists_backoffCeiling_eq (ceiling : Duration) :
    ∃ (p : RetryPolicy) (attempt : Nat), p.backoffCeiling attempt = ceiling := by
  refine ⟨{ standard with maxBackoff := ceiling, multiplier := 1e300 }, 3, ?_⟩
  have grown : (Float.ofNat standard.initialBackoff.nanos * power 1e300 2).isFinite = false := by
    decide +kernel
  unfold backoffCeiling
  dsimp only
  rw [grown]
  rfl

open LedgerConfig (ofSettings)

/-- A cap of a word or more has been set. -/
theorem says_of_large_cap {lookup : String → Option String}
    (large : wordBound ≤ (ofSettings lookup).1.retry.maxBackoff.nanos) :
    ∃ ms, LedgerConfig.Setting.maxBackoff.Says lookup ms ∧ wordBound ≤ ms * 1000000 := by
  have rule : some (ofSettings lookup).1.retry.maxBackoff.nanos = _ :=
    LedgerConfig.value_ofSettings lookup .maxBackoff
  cases said : (LedgerConfig.numberSetting lookup LedgerConfig.Setting.maxBackoff.key).1 with
  | none =>
    rw [said, Option.bind_none, Option.getD_none] at rule
    rw [Option.some.inj rule] at large
    cases Nat.not_lt.2 large (by decide)
  | some ms =>
    rw [said] at rule
    rw [Option.some.inj rule] at large
    exact ⟨ms, LedgerConfig.numberSetting_eq_some_iff.1 said, large⟩

/-- The waits of every policy span their ceiling as far as 64 bits reach, and there are policies for
every ceiling. With one from settings they span it all, unless the cap is set to a number of
milliseconds beyond that. -/
theorem jitters_and_spans_ofSettings (p : RetryPolicy) (attempt : Nat) (ceiling : Duration)
    (lookup : String → Option String) : p.Jitters attempt ∧
      (∃ (q : RetryPolicy) (k : Nat), q.backoffCeiling k = ceiling) ∧
      ((ofSettings lookup).1.retry.Spans attempt ∨
        ∃ ms, LedgerConfig.Setting.maxBackoff.Says lookup ms ∧ wordBound ≤ ms * 1000000) := by
  refine ⟨jitters p attempt, exists_backoffCeiling_eq ceiling, ?_⟩
  by_cases spans : (ofSettings lookup).1.retry.Spans attempt
  · exact .inl spans
  · obtain ⟨-, large⟩ := (jitters _ attempt).capped spans
    exact .inr (says_of_large_cap large)

/-- Both backoffs set to two to the power of 58 milliseconds, more than nine million years. -/
def longCap (key : String) : Option String :=
  if key = LedgerConfig.initialBackoffKey ∨ key = LedgerConfig.maxBackoffKey then
    some "288230376151711744" else none

/-- The low 64 bits of such a ceiling are all zero, and there is no wait at all. -/
theorem not_spans_longCap : 0 < ((ofSettings longCap).1.retry.backoffCeiling 1).nanos ∧
    (ofSettings longCap).1.retry.jitterBound 1 = 0 ∧ ¬(ofSettings longCap).1.retry.Spans 1 := by
  have ceiling : ((ofSettings longCap).1.retry.backoffCeiling 1).nanos =
      288230376151711744000000 := by decide +kernel
  rw [spans_iff, jitterBound, ceiling]
  decide

end RetryPolicy

end Stockroom
