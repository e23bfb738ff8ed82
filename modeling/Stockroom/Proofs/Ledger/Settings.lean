import Stockroom.Ledger.Config

/-! Settings by name. A setting is heeded if it says a number, in the wide sense of a reader that
takes blanks and a plus sign, and if the number is one that the setting can take. All four go by one
rule, and none looks at the key of another. -/
namespace Stockroom.LedgerConfig
set_option autoImplicit false

/-- A 64-bit number, with blanks around it and a plus sign in front of it at will. -/
def IsNumber (raw : String) (n : Nat) : Prop :=
  ∃ ds, (Text.trim raw.toList = ds ∨ Text.trim raw.toList = '+' :: ds) ∧
    Text.number? ds = some n ∧ n < wordBound

inductive Setting where
  | attempts
  | initialBackoff
  | maxBackoff
  | ttl

namespace Setting

def key : Setting → String
  | .attempts => attemptsKey
  | .initialBackoff => initialBackoffKey
  | .maxBackoff => maxBackoffKey
  | .ttl => ttlKey

/-- The value of a setting, of a span in nanoseconds; only a lifetime may be missing. -/
def value (c : LedgerConfig) : Setting → Option Nat
  | .attempts => some c.retry.maxAttempts
  | .initialBackoff => some c.retry.initialBackoff.nanos
  | .maxBackoff => some c.retry.maxBackoff.nanos
  | .ttl => c.reservationTtl.map Duration.nanos

/-- The value that a number stands for, unless it is ignored. -/
def taken? : Setting → Nat → Option (Option Nat)
  | .attempts, n => some (some (min n 4294967295))
  | .initialBackoff, n => some (some (n * 1000000))
  | .maxBackoff, n => some (some (n * 1000000))
  | .ttl, n =>
    if maxTtlSeconds < n then none else if n = 0 then some none else some (some (n * 1000000000))

/-- What the text under the key of a setting says. -/
def Says (lookup : String → Option String) (k : Setting) (n : Nat) : Prop :=
  ∃ raw, lookup k.key = some raw ∧ IsNumber raw n

end Setting

variable {lookup : String → Option String} {k : Setting} {cs : List Char} {n v : Nat}

/-! ## Numbers -/

/-- The number that digits make when they are put behind `n`. -/
def valueAfter (n : Nat) (cs : List Char) : Option Nat :=
  (cs.mapM Text.digit?).map fun ds => ds.foldl (fun n d => 10 * n + d) n

theorem valueAfter_nil (n : Nat) : valueAfter n [] = some n := rfl

theorem valueAfter_cons_none {c : Char} (h : Text.digit? c = none) (n : Nat) (cs : List Char) :
    valueAfter n (c :: cs) = none := by
  rw [valueAfter, List.mapM_cons, h]
  rfl

theorem valueAfter_cons_some {c : Char} {d : Nat} (h : Text.digit? c = some d) (n : Nat)
    (cs : List Char) :
    valueAfter n (c :: cs) = valueAfter (10 * n + d) cs := by
  rw [valueAfter, List.mapM_cons, h, valueAfter]
  cases cs.mapM Text.digit? <;> rfl

theorem number?_eq_valueAfter (hc : cs ≠ []) : Text.number? cs = valueAfter 0 cs := by
  rw [Text.number?, if_neg (by simpa using hc)]
  rfl

theorem number?_plus (cs : List Char) : Text.number? ('+' :: cs) = none := by
  rw [number?_eq_valueAfter (List.cons_ne_nil _ _)]
  exact valueAfter_cons_none rfl 0 cs

theorem le_of_valueAfter (h : valueAfter n cs = some v) : n ≤ v := by
  induction cs generalizing n with
  | nil => exact Nat.le_of_eq (Option.some.inj h)
  | cons c cs ih =>
    cases hd : Text.digit? c with
    | none =>
      rw [valueAfter_cons_none hd] at h
      cases h
    | some d =>
      rw [valueAfter_cons_some hd] at h
      have s1 := ih h
      omega

/-- A number that has become too large stays so, whatever digits follow. -/
theorem readDigits_eq_ok_iff (hn : n < wordBound) :
    readDigits n cs = .ok v ↔ valueAfter n cs = some v ∧ v < wordBound := by
  induction cs generalizing n with
  | nil =>
    rw [readDigits, valueAfter_nil, Except.ok.injEq, Option.some_inj]
    exact (and_iff_left_of_imp fun same => same ▸ hn).symm
  | cons c cs ih =>
    cases hd : Text.digit? c with
    | none => simp [readDigits, hd, valueAfter_cons_none hd]
    | some d =>
      rw [valueAfter_cons_some hd, readDigits, hd]
      dsimp only
      split
      · rename_i large
        refine iff_of_false nofun ?_
        rintro ⟨h, small⟩
        have s1 := le_of_valueAfter h
        omega
      · rename_i small
        exact ih (Nat.lt_of_not_le small)

theorem readDigits_zero_eq_ok_iff (hc : cs ≠ []) :
    readDigits 0 cs = .ok n ↔ Text.number? cs = some n ∧ n < wordBound := by
  rw [readDigits_eq_ok_iff (by decide), number?_eq_valueAfter hc]

theorem readNumber_eq_ok_iff : readNumber cs = .ok n ↔
    ∃ ds, (cs = ds ∨ cs = '+' :: ds) ∧ Text.number? ds = some n ∧ n < wordBound := by
  -- a sign is no digit, so the digits are what follows it if there is one,
  -- and the whole text if not
  fun_cases readNumber cs with
  | case1 => simp [Text.number?]
  | case2 =>
    refine iff_of_false nofun ?_
    rintro ⟨ds, rfl | h, hn, -⟩
    · cases (number?_plus []).symm.trans hn
    · cases h
      cases hn
  | case3 cs hc =>
    rw [readDigits_zero_eq_ok_iff fun h => hc h]
    constructor
    · exact fun h => ⟨cs, .inr rfl, h⟩
    · rintro ⟨ds, rfl | h, hn⟩
      · cases (number?_plus cs).symm.trans hn.1
      · cases h
        exact hn
  | case4 =>
    rename_i hc h2 h3
    rw [readDigits_zero_eq_ok_iff hc]
    constructor
    · exact fun h => ⟨cs, .inl rfl, h⟩
    · rintro ⟨ds, rfl | rfl, hn⟩
      · exact hn
      · exact absurd rfl (h3 ds)

/-! ## Settings -/

theorem isNumber_iff {raw : String} : IsNumber raw n ↔ readNumber (Text.trim raw.toList) = .ok n :=
  readNumber_eq_ok_iff.symm

theorem numberSetting_eq_some_iff : (numberSetting lookup k.key).1 = some n ↔ k.Says lookup n := by
  unfold numberSetting Setting.Says
  simp only [isNumber_iff]
  cases lookup k.key with
  | none => simp
  | some raw => cases hr : readNumber (Text.trim raw.toList) <;> simp [hr]

theorem numberSetting_congr {lookup' : String → Option String} {key : String}
    (h : lookup' key = lookup key) :
    numberSetting lookup' key = numberSetting lookup key := by
  rw [numberSetting, h, numberSetting]

theorem Setting.Says.lt (h : k.Says lookup n) : n < wordBound := by
  obtain ⟨raw, -, ds, -, -, h⟩ := h
  exact h

theorem nanos_ofMillis (h : n < wordBound) : (Duration.ofMillis n).nanos = n * 1000000 := by
  refine Duration.nanos_ofNanos ?_
  unfold wordBound at h
  unfold Duration.bound
  omega

theorem nanos_ofSeconds (h : n ≤ maxTtlSeconds) :
    (Duration.ofSeconds n).nanos = n * 1000000000 := by
  refine Duration.nanos_ofNanos ?_
  unfold maxTtlSeconds at h
  unfold Duration.bound
  omega

theorem nanos_backoff {o : Option Nat} (small : ∀ n, o = some n → n < wordBound) (d : Duration) :
    some ((o.map Duration.ofMillis).getD d).nanos =
      (o.bind fun n => some (some (n * 1000000))).getD (some d.nanos) := by
  cases o with
  | none => rfl
  | some n => rw [Option.map_some, Option.getD_some, nanos_ofMillis (small n rfl),
    Option.bind_some, Option.getD_some]

theorem nanos_ttlSetting (current : Option Duration) (o : Option Nat) :
    (ttlSetting current o).1.map Duration.nanos =
      (o.bind Setting.ttl.taken?).getD (current.map Duration.nanos) := by
  cases o with
  | none => rfl
  | some n =>
    rw [Option.bind_some]
    unfold ttlSetting Setting.taken?
    dsimp only
    split
    · rfl
    · rename_i short
      split
      · rfl
      · rw [Option.map_some, nanos_ofSeconds (Nat.le_of_not_lt short), Option.getD_some]

/-- All settings go by one rule. -/
theorem value_ofSettings (lookup : String → Option String) (k : Setting) :
    k.value (ofSettings lookup).1 =
      ((numberSetting lookup k.key).1.bind k.taken?).getD (k.value standard) := by
  have small : ∀ n, (numberSetting lookup k.key).1 = some n → n < wordBound :=
    fun n h => (numberSetting_eq_some_iff.1 h).lt
  cases k with
  | attempts =>
    show some (((numberSetting lookup Setting.attempts.key).1.map _).getD _) = _
    cases (numberSetting lookup Setting.attempts.key).1 <;> rfl
  | initialBackoff => exact nanos_backoff small standard.retry.initialBackoff
  | maxBackoff => exact nanos_backoff small standard.retry.maxBackoff
  | ttl => exact nanos_ttlSetting standard.reservationTtl _

theorem value_congr {lookup' : String → Option String} (h : lookup' k.key = lookup k.key) :
    k.value (ofSettings lookup').1 = k.value (ofSettings lookup).1 := by
  rw [value_ofSettings, value_ofSettings, numberSetting_congr h]

theorem value_of_says {o : Option Nat} (h : k.Says lookup n) (ht : k.taken? n = some o) :
    k.value (ofSettings lookup).1 = o := by
  rw [value_ofSettings, numberSetting_eq_some_iff.2 h, Option.bind_some, ht, Option.getD_some]

theorem value_of_ignored (h : ∀ n, k.Says lookup n → k.taken? n = none) :
    k.value (ofSettings lookup).1 = k.value standard := by
  rw [value_ofSettings]
  cases hn : (numberSetting lookup k.key).1 with
  | none => rfl
  | some n => rw [Option.bind_some, h n (numberSetting_eq_some_iff.1 hn), Option.getD_none]

/-! ## Configurations -/

/-- How a configuration goes by its settings. -/
structure Heeds (lookup : String → Option String) (c : LedgerConfig) : Prop where
  taken : ∀ (k : Setting) n v, k.Says lookup n → k.taken? n = some v → k.value c = v
  /-- What says no number, or one that is ignored, leaves the standard value. -/
  ignored : ∀ k : Setting, (∀ n, k.Says lookup n → k.taken? n = none) → k.value c = k.value standard
  /-- A setting depends on its own key alone. -/
  own : ∀ (k : Setting) lookup', lookup' k.key = lookup k.key →
    k.value (ofSettings lookup').1 = k.value c
  maxAttempts_le : c.retry.maxAttempts ≤ 4294967295
  /-- A lifetime is of at least a second and at most 365 days. -/
  ttl_bounds : ∀ d ∈ c.reservationTtl, 1000000000 ≤ d.nanos ∧ d.nanos ≤ 31536000000000000
  others : c.retry.multiplier = standard.retry.multiplier ∧
    c.retry.deadline = standard.retry.deadline ∧ c.defaultThresholds = standard.defaultThresholds

theorem le_of_ttl_taken {v : Nat} (h : Setting.ttl.taken? n = some (some v)) :
    1000000000 ≤ v ∧ v ≤ 31536000000000000 := by
  unfold Setting.taken? at h
  dsimp only at h
  split at h
  · cases h
  · rename_i short
    split at h
    · cases h
    · cases h
      unfold maxTtlSeconds at short
      omega

theorem ttl_bounds (lookup : String → Option String) {d : Duration}
    (hd : d ∈ (ofSettings lookup).1.reservationTtl) :
    1000000000 ≤ d.nanos ∧ d.nanos ≤ 31536000000000000 := by
  have value : Setting.ttl.value (ofSettings lookup).1 = some d.nanos :=
    congrArg (Option.map Duration.nanos) hd
  rw [value_ofSettings] at value
  cases ht : (numberSetting lookup Setting.ttl.key).1.bind Setting.ttl.taken? with
  | none =>
    rw [ht] at value
    have standard : d.nanos = 900000000000 := (Option.some.inj value).symm
    omega
  | some o =>
    rw [ht, Option.getD_some] at value
    obtain ⟨n, -, hn⟩ := Option.bind_eq_some_iff.1 ht
    rw [value] at hn
    exact le_of_ttl_taken hn

theorem maxAttempts_le (lookup : String → Option String) :
    (ofSettings lookup).1.retry.maxAttempts ≤ 4294967295 := by
  show ((numberSetting lookup attemptsKey).1.map (min · 4294967295)).getD 8 ≤ _
  cases (numberSetting lookup attemptsKey).1 with
  | none => decide
  | some n => exact Nat.min_le_right _ _

theorem heeds_ofSettings (lookup : String → Option String) :
    Heeds lookup (ofSettings lookup).1 where
  taken _ _ _ := value_of_says
  ignored _ := value_of_ignored
  own _ _ := value_congr
  maxAttempts_le := maxAttempts_le lookup
  ttl_bounds _ := ttl_bounds lookup
  others := ⟨rfl, rfl, rfl⟩

end Stockroom.LedgerConfig
