import Stockroom.Ledger.Contest
import Stockroom.Ledger.Scene
import Stockroom.Proofs.Ledger.Course
import Stockroom.Proofs.Store.Writes

/-! Retrying in a contest. What an attempt comes to is a matter of its round alone: of the record
that it loads and the clock that it reads there. An attempt that is lost to a conflict leaves
nothing behind; the first one that is not is the last, and its outcome is the operation's. Only
conflicts use up the attempts that the policy allows. -/
namespace Stockroom.Ledger
set_option autoImplicit false

open Program (Leads Logic leading run_seq)

/-- What a task comes to in one round, and the store after it. -/
def Round.play (x : Round) (config : LedgerConfig) (task : Task) (s : Store) :
    Except LedgerError Commit × Store :=
  match x.load task.sku s with
  | .error e => (.error (.ofStore e), x.meddle s)
  | .ok none => (.error (.stock (.notFound task.sku)), x.meddle s)
  | .ok (some current) =>
    match task.command config x.now with
    | .error e => (.error (.stock e), x.meddle s)
    | .ok c =>
      match current.execute c with
      | .error e => (.error (.stock e), x.meddle s)
      | .ok (_, []) => (.ok ⟨current, []⟩, x.meddle s)
      | .ok (candidate, events) =>
        match x.swap candidate (.exactly current.version) (x.meddle s) with
        | (.error e, after) => (.error (.ofStore e), after)
        | (.ok record, after) => (.ok ⟨record, events⟩, after)

def isConflict : Except LedgerError Commit → Bool
  | .error (.concurrencyConflict _ _) => true
  | _ => false

namespace Contest

/-- The store as others have left it before a round. -/
def before (w : Contest) (s : Store) : Nat → Store
  | 0 => s
  | n + 1 => (w.round n).meddle (w.before s n)

/-- What a task comes to in a round before which it has written nothing. -/
def trial (w : Contest) (config : LedgerConfig) (task : Task) (s : Store) (n : Nat) :
    Except LedgerError Commit × Store :=
  (w.round n).play config task (w.before s n)

/-- How a task ends that is tried from the round `first` up to the round `last`: the answer, the
number of the rounds that have begun by then, and the store. The first trial that is no conflict
decides; if there is none, that is reported. -/
inductive Ends (w : Contest) (config : LedgerConfig) (task : Task) (s : Store) (first last : Nat) :
    Except LedgerError Commit → Nat → Store → Prop where
  | decided (n : Nat) (hf : first ≤ n) (hl : n < last)
    (lost : ∀ i, first ≤ i → i < n → isConflict (w.trial config task s i).1 = true)
    (h : isConflict (w.trial config task s n).1 = false) :
    Ends w config task s first last (w.trial config task s n).1 (n + 1) (w.trial config task s n).2
  | exhausted (lost : ∀ i, first ≤ i → i < last → isConflict (w.trial config task s i).1 = true) :
    Ends w config task s first last
      (.error (.concurrencyConflict task.sku last)) last (w.before s last)

end Contest

structure Contested.Stands (rounds : Nat) (store : Store) (t : Contested) : Prop where
  rounds : t.rounds = rounds
  store : t.store = store

variable {w : Contest} {config : LedgerConfig} {task : Task} {s : Store} {n : Nat} {t : Contested}

/-! ## Lost rounds -/

theorem isConflict_error (e : LedgerError) : isConflict (.error e) = e.isRetryable := by
  cases e <;> rfl

theorem isConflict_ofStore_iff (e : StoreError) :
    isConflict (.error (.ofStore e)) = true ↔
      ∃ sku expected actual, e = .conflict sku expected actual := by
  rw [isConflict_error]
  exact LedgerError.isRetryable_ofStore_iff e

theorem Round.isConflict_swap_iff (x : Round) (candidate : StockRecord) (version : Nat)
    (s : Store) :
    (∃ sku e actual, (x.swap candidate (.exactly version) s).1 = .error (.conflict sku e actual)) ↔
      (∃ sku e actual, x.swapFault = some (.conflict sku e actual)) ∨
        x.swapFault = none ∧ candidate.IsConsistent ∧
        ∃ found, s.load candidate.sku = some found ∧ found.version ≠ version := by
  unfold Round.swap
  cases x.swapFault with
  | some e => simp
  | none =>
    have hc := @Store.swap_eq_conflict_iff s candidate (.exactly version)
    have hm (found : StockRecord) :
        (ExpectedVersion.exactly version).matches found.version = false ↔
          found.version ≠ version := by
      rw [← Bool.not_eq_true, Store.matches_exactly, ne_comm]
    simp only [hm] at hc
    simp only [← hc]
    cases s.swap candidate (.exactly version) <;> simp

/-- A round is lost if its load is made to fail with a conflict, or else after a decision
that changes something: if the swap is made to fail so, or finds that the version has
changed since the load. -/
theorem Round.isConflict_play_iff (x : Round) (config : LedgerConfig) (task : Task) (s : Store) :
    isConflict (x.play config task s).1 = true ↔
      (∃ sku e actual, x.loadFault = some (.conflict sku e actual)) ∨
        ∃ current c candidate events, x.loadFault = none ∧ s.load task.sku = some current ∧
          task.command config x.now = .ok c ∧ current.execute c = .ok (candidate, events) ∧
          events ≠ [] ∧
          ((∃ sku e actual, x.swapFault = some (.conflict sku e actual)) ∨
            x.swapFault = none ∧ candidate.IsConsistent ∧
              ∃ found, (x.meddle s).load candidate.sku = some found ∧
                found.version ≠ current.version) := by
  simp only [← Round.isConflict_swap_iff]
  unfold Round.play Round.load
  cases x.loadFault with
  | some e => simp [isConflict_ofStore_iff]
  | none =>
    cases s.load task.sku with
    | none => simp [isConflict]
    | some current =>
      cases task.command config x.now with
      | error e => simp [isConflict]
      | ok c =>
        cases he : current.execute c with
        | error e => simp [isConflict, he]
        | ok r =>
          obtain ⟨candidate, events⟩ := r
          cases events with
          | nil => simp [isConflict, he]
          | cons event events =>
            rcases hs : x.swap candidate (.exactly current.version)
              (x.meddle s) with ⟨e | record, after⟩
            · simp [isConflict_ofStore_iff, he, hs, and_assoc]
            · simp [isConflict, he, hs, and_assoc]

/-! ## Rounds -/

theorem Round.swap_ok_or_snd (x : Round) (candidate : StockRecord) (expected : ExpectedVersion)
    (s : Store) :
    (∃ record, (x.swap candidate expected s).1 = .ok record) ∨
      (x.swap candidate expected s).2 = s := by
  unfold Round.swap
  cases x.swapFault with
  | some e => exact Or.inr rfl
  | none =>
    cases s.swap candidate expected with
    | error e => exact Or.inr rfl
    | ok p => exact Or.inl ⟨p.1, rfl⟩

/-- A task that fails in a round leaves the store as others have left it. -/
theorem Round.play_ok_or_snd (x : Round) (config : LedgerConfig) (task : Task) (s : Store) :
    (∃ c, (x.play config task s).1 = .ok c) ∨ (x.play config task s).2 = x.meddle s := by
  unfold Round.play
  match x.load task.sku s with
  | .error e => exact Or.inr rfl
  | .ok none => exact Or.inr rfl
  | .ok (some current) =>
    dsimp only
    cases task.command config x.now with
    | error e => exact Or.inr rfl
    | ok c =>
      dsimp only
      cases current.execute c with
      | error e => exact Or.inr rfl
      | ok r =>
        obtain ⟨candidate, events⟩ := r
        cases events with
        | nil => exact Or.inr rfl
        | cons event events =>
          have swapped := x.swap_ok_or_snd candidate (.exactly current.version) (x.meddle s)
          dsimp only
          generalize x.swap candidate (.exactly current.version) (x.meddle s) = answer at swapped ⊢
          obtain ⟨e | record, after⟩ := answer
          · rcases swapped with ⟨record, h⟩ | h
            · cases h
            · exact Or.inr h
          · exact Or.inl ⟨⟨record, event :: events⟩, rfl⟩

theorem Contest.trial_snd_of_isConflict (h : isConflict (w.trial config task s n).1 = true) :
    (w.trial config task s n).2 = w.before s (n + 1) := by
  rcases (w.round n).play_ok_or_snd config task (w.before s n) with ⟨c, hc⟩ | h1
  · have hc' : (w.trial config task s n).1 = .ok c := hc
    rw [hc'] at h
    cases h
  · exact h1

/-! ## Attempts -/

/-- The task is at its next attempt, with the rounds before it lost. -/
structure Contested.Waits (w : Contest) (config : LedgerConfig) (task : Task) (s : Store) (n : Nat)
    (t : Contested) :
    Prop extends t.Stands n (w.before s n) where
  lost : ∀ i < n, isConflict (w.trial config task s i).1 = true

/-- A round has been begun by a load. -/
structure Contested.Plays (w : Contest) (s : Store) (n : Nat) (t : Contested) : Prop
    extends t.Stands (n + 1) (w.before s (n + 1)) where
  current : t.current = w.round n

/-- An attempt has come to what the trial of its round comes to. -/
structure Contested.Tried (w : Contest) (config : LedgerConfig) (task : Task) (s : Store) (n : Nat)
    (result : Except LedgerError Commit) (t : Contested) : Prop
    extends t.Stands (n + 1) (w.trial config task s n).2 where
  result_eq : result = (w.trial config task s n).1

theorem Contested.Plays.tried {result : Except LedgerError Commit} (h : t.Plays w s n)
    (ht : w.trial config task s n = (result, w.before s (n + 1))) :
    t.Tried w config task s n result where
  rounds := h.rounds
  store := by
    rw [ht]
    exact h.store
  result_eq := by rw [ht]

/-- Questions that are passed over are answered by the world, in the round as it stands. -/
theorem passes_contest (stand : Nat → Store → Prop) :
    Passes (leading w.answer) fun t => stand t.rounds t.store := by
  intro t q hs hq
  cases q <;> first | exact hs | cases hq

theorem Contested.Stands.load (h : t.Stands n (w.before s n)) (config : LedgerConfig)
    (task : Task) :
    (Program.load task.sku).Leads w.answer t (afterLoad task.sku
      (fun current t => (w.round n).load task.sku (w.before s n) = .ok (some current) ∧
        t.Plays w s n)
      fun result t => t.Tried w config task s n result) := by
  obtain ⟨rfl, hs⟩ := h
  have plays : (w.answer (.load task.sku) t).2.Plays w s t.rounds :=
    { rounds := rfl
      store := congrArg (w.round t.rounds).meddle hs
      current := rfl }
  show afterLoad _ _ _ ((w.round t.rounds).load task.sku t.store) _
  rw [hs]
  cases hl : (w.round t.rounds).load task.sku (w.before s t.rounds) with
  | error e =>
    refine plays.tried ?_
    rw [Contest.trial, Round.play, hl]
    rfl
  | ok found =>
    cases found with
    | none =>
      refine plays.tried ?_
      rw [Contest.trial, Round.play, hl]
      rfl
    | some current => exact ⟨rfl, plays⟩

/-- A decision of consequence is put to the swap of the round. -/
theorem Contest.trial_of_swap {current candidate : StockRecord} {c : Command} {events : List Event}
    (hl : (w.round n).load task.sku (w.before s n) = .ok (some current))
    (hc : task.command config (w.round n).now = .ok c)
    (he : current.execute c = .ok (candidate, events)) (hn : events ≠ []) :
    w.trial config task s n =
      (stored events ((w.round n).swap candidate (.exactly current.version) (w.before s (n + 1))).1,
        ((w.round n).swap candidate (.exactly current.version) (w.before s (n + 1))).2) := by
  simp only [trial, Round.play, hl, hc, he, before]
  cases events with
  | nil => exact absurd rfl hn
  | cons event events =>
    match (w.round n).swap candidate (.exactly current.version)
      ((w.round n).meddle (w.before s n)) with
    | (.error e, after) => rfl
    | (.ok record, after) => rfl

def attempts_contest (w : Contest) (config : LedgerConfig) (task : Task) (s : Store) (n : Nat) :
    Attempts (leading w.answer) task.sku (fun now => task.command config now)
      (fun t => t.Stands n (w.before s n)) fun result t => t.Tried w config task s n result where
  loaded current t := (w.round n).load task.sku (w.before s n) = .ok (some current) ∧ t.Plays w s n
  timed current now t :=
    now = (w.round n).now ∧
      (w.round n).load task.sku (w.before s n) = .ok (some current) ∧ t.Plays w s n
  load _ h := h.load config task
  clock _ _ h := ⟨congrArg Round.now h.2.current, h⟩
  undecided _ _ _ _ h hc := by
    obtain ⟨rfl, hl, plays⟩ := h
    exact plays.tried (by simp only [Contest.trial, Round.play, hl, hc, Contest.before])
  refused _ _ _ _ _ h hc he := by
    obtain ⟨rfl, hl, plays⟩ := h
    exact plays.tried (by simp only [Contest.trial, Round.play, hl, hc, he, Contest.before])
  idle _ _ _ _ _ h hc he := by
    obtain ⟨rfl, hl, plays⟩ := h
    exact plays.tried (by simp only [Contest.trial, Round.play, hl, hc, he, Contest.before])
  swap t current _ _ candidate _ h hc he hn := by
    obtain ⟨rfl, hl, plays⟩ := h
    have trial := Contest.trial_of_swap hl hc he hn
    have swapped : t.current.swap candidate (.exactly current.version) t.store =
        (w.round n).swap candidate (.exactly current.version) (w.before s (n + 1)) := by
      rw [plays.current, plays.store]
    rw [← swapped] at trial
    exact { rounds := plays.rounds
            store := (congrArg Prod.snd trial).symm
            result_eq := (congrArg Prod.fst trial).symm }
  passes result := by
    intro t q hs hq
    have kept := passes_contest (w := w)
      (fun rounds store => rounds = n + 1 ∧ store = (w.trial config task s n).2) t q
      ⟨hs.rounds, hs.store⟩ hq
    exact { rounds := kept.1, store := kept.2, result_eq := hs.result_eq }

/-! ## Operations -/

/-- What the operation makes of the end of its attempts. -/
def verdict (sku : SkuCode) : Except (Retry.Failure LedgerError) Commit → Except LedgerError Commit
  | .ok c => .ok c
  | .error (.fatal e) => .error e
  | .error (.exhausted attempts _) => .error (.concurrencyConflict sku attempts)

/-- A round that is not lost is the last one. -/
theorem Contested.Tried.decided {result : Except LedgerError Commit} {last : Nat}
    (h : t.Tried w config task s n result)
    (lost : ∀ i < n, isConflict (w.trial config task s i).1 = true) (hl : n < last)
    (hc : isConflict result = false) :
    w.Ends config task s 0 last result t.rounds t.store := by
  rw [h.result_eq] at hc ⊢
  rw [h.rounds, h.store]
  exact .decided n (Nat.zero_le n) hl (fun i _ => lost i) hc

theorem Contested.Tried.waits {e : LedgerError} (h : t.Tried w config task s n (.error e))
    (lost : ∀ i < n, isConflict (w.trial config task s i).1 = true) (hr : e.isRetryable = true) :
    t.Waits w config task s (n + 1) := by
  have hc : isConflict (w.trial config task s n).1 = true := by
    rw [← h.result_eq, isConflict_error]
    exact hr
  refine ⟨⟨h.rounds, h.store.trans (Contest.trial_snd_of_isConflict hc)⟩, fun i hi => ?_⟩
  rcases Nat.lt_succ_iff_lt_or_eq.1 hi with hi | rfl
  · exact lost i hi
  · exact hc

theorem retries_contest (w : Contest) (task : Task) (s : Store)
    (hd : config.retry.deadline = none) :
    Retries (leading w.answer) config.retry (attempt task.sku fun now => task.command config now)
      LedgerError.isRetryable config.retry.attempts
      (fun k t => ∃ n, k = n + 1 ∧ n < config.retry.attempts ∧ t.Waits w config task s n)
      (fun k result t => ∃ n, k = n + 1 ∧ n < config.retry.attempts ∧
        t.Tried w config task s n result ∧
        ∀ i < n, isConflict (w.trial config task s i).1 = true)
      fun result t => w.Ends config task s 0 config.retry.attempts
        (verdict task.sku result) t.rounds t.store where
  attempt k t h := by
    obtain ⟨n, hk, hl, waits⟩ := h
    have tried := (attempts_contest w config task s n).holds k waits.toStands
    exact (leading w.answer).mono tried fun _ _ ht => ⟨n, hk, hl, ht, waits.lost⟩
  passes k result t q h hq := by
    obtain ⟨n, hk, hl, tried, lost⟩ := h
    have kept := (attempts_contest w config task s n).passes result t q tried hq
    exact (leading w.answer).mono kept fun _ _ ht => ⟨n, hk, hl, ht, lost⟩
  succeeded k c t h := by
    obtain ⟨n, -, hl, tried, lost⟩ := h
    exact tried.decided lost hl rfl
  failed k e t h hr := by
    obtain ⟨n, -, hl, tried, lost⟩ := h
    exact tried.decided lost hl ((isConflict_error e).trans hr)
  spent k e t h hr hs := by
    obtain ⟨n, rfl, hl, tried, lost⟩ := h
    have waits := tried.waits lost hr
    rcases hs with hs | hs
    · rw [waits.rounds, waits.store]
      rw [hs] at waits ⊢
      exact .exhausted fun i _ => waits.lost i
    · rw [hd] at hs
      cases hs
  again k e t h hr hl := by
    obtain ⟨n, rfl, -, tried, lost⟩ := h
    exact ⟨n + 1, rfl, hl, tried.waits lost hr⟩

theorem ends_commit (w : Contest) (task : Task) (s : Store) (hd : config.retry.deadline = none) :
    (commit config task.sku fun now => task.command config now).Leads w.answer
      ⟨s, 0, w.round 0, 0⟩ fun result t =>
      w.Ends config task s 0 config.retry.attempts result t.rounds t.store := by
  have closes : Closes (leading w.answer) task.sku
      (fun result t => w.Ends config task s 0 config.retry.attempts
        (verdict task.sku result) t.rounds t.store)
      fun result t => w.Ends config task s 0 config.retry.attempts result t.rounds t.store :=
    { told := fun t c ends =>
        have publishes : Publishes (leading w.answer) c.record fun _ t =>
            w.Ends config task s 0 config.retry.attempts (.ok c) t.rounds t.store :=
          { naming := fun _ _ _ t =>
              w.Ends config task s 0 config.retry.attempts (.ok c) t.rounds t.store
            name := fun _ _ _ ends => ends
            offer := fun _ _ _ _ ends => ends
            passes := fun _ => passes_contest _ }
        publishes.holds c.events ends
      failed := fun _ _ ends => ends
      spent := fun _ _ _ ends => ends
      passes := fun e => passes_contest _ }
  have positive : 0 < config.retry.attempts := Nat.le_max_right _ _
  exact closes.holds ((retries_contest w task s hd).run
    ⟨0, rfl, positive, ⟨rfl, rfl⟩, fun i hi => absurd hi (Nat.not_lt_zero i)⟩)

/-- A task that writes to a unit that is there, and that the configuration lets begin, is a
commit of its command. -/
theorem Task.settle_eq_commit (hc : ∀ item, task ≠ .create item)
    (ha : task.isAdmitted config = true) :
    task.settle config = commit config task.sku fun now => task.command config now := by
  cases task with
  | create item => exact absurd rfl (hc item)
  | _ => simp only [Task.settle, ha, if_true]

/-- However others meddle with the store between its loads and swaps, and whichever of these
are made to fail, a task without a deadline ends in the first round that is not lost to a
conflict, with the outcome of that round; if the policy allows no such round, it reports a
conflict after all that it allows. -/
theorem ends_run (w : Contest) (s : Store) (hd : config.retry.deadline = none)
    (ha : task.isAdmitted config = true) (hc : ∀ item, task ≠ .create item) :
    ∃ result, (w.run s (task.program config)).1 = result.map Commit.record ∧
      w.Ends config task s 0 config.retry.attempts result (w.run s (task.program config)).2.rounds
        (w.run s (task.program config)).2.store := by
  have ends := ends_commit w task s hd
  unfold Contest.run
  rw [Task.program_eq, Task.settle_eq_commit hc ha, run_seq]
  exact ⟨_, rfl, ends⟩

def noon : Timestamp := (Timestamp.make? 0 43200 0).get (by decide)

def stocked : Store :=
  let item : ItemDetails := ⟨⟨.ofNat 1⟩, 10, .standard, none, none, none⟩
  Store.empty.put (((StockRecord.empty ⟨.ofNat 1⟩ ⟨"BOLT"⟩).run [⟨.create item, noon⟩]).atVersion 1)

/-- Another writer reserves five units in the first round. -/
def outrun : Contest where
  round n :=
    { loadFault := none
      meddle := fun s => if n = 0 then
        Scene.rival ⟨"BOLT"⟩ s ⟨.reserve ⟨"theirs"⟩ 5 none none, noon⟩ else s
      now := noon
      swapFault := none }
  world _ q := (Scene.answer q (.start noon fun _ => none)).1

def ours : Task := .reserve ⟨"BOLT"⟩ 8 ⟨"ours"⟩ none

theorem ends_run_outrun :
    (outrun.run stocked (ours.program .standard)).1 = .error (.stock (.insufficientStock 8 5)) ∧
      (outrun.run stocked (ours.program .standard)).2.rounds = 2 := by
  have lost : isConflict (outrun.trial .standard ours stocked 0).1 = true := by decide +kernel
  have refused : (outrun.trial .standard ours stocked 1).1 =
      .error (.stock (.insufficientStock 8 5)) := by
    with_unfolding_all rfl
  have admitted : ours.isAdmitted .standard = true := by decide +kernel
  obtain ⟨result, h1, he⟩ := ends_run outrun stocked rfl admitted fun item h => by cases h
  rw [h1]
  generalize (outrun.run stocked (ours.program .standard)).2.rounds = rounds at he ⊢
  generalize (outrun.run stocked (ours.program .standard)).2.store = store at he
  cases he with
  | decided n hf hl before h =>
    have hn : n = 1 := by
      rcases Nat.lt_trichotomy n 1 with h3 | h3 | h3
      · rw [Nat.lt_one_iff.1 h3, lost] at h
        cases h
      · exact h3
      · have h4 := before 1 (Nat.zero_le 1) h3
        rw [refused] at h4
        cases h4
    rw [hn, refused]
    exact ⟨rfl, rfl⟩
  | exhausted h =>
    have h3 := h 1 (Nat.zero_le 1) (by decide)
    rw [refused] at h3
    cases h3

end Stockroom.Ledger
