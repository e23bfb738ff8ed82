import Stockroom.Proofs.Store.Writes
import Stockroom.Proofs.Text.ByteOrder
import Stockroom.Proofs.Text.KeyMap
import Stockroom.Store.Calls

/-! A store gives account of its calls. Whatever it has been asked to write, each of its records
goes back to one insertion and to the swaps accepted since, which are what its version counts; and
what the next call does depends on the stored record of its unit alone. -/
namespace Stockroom.Store
set_option autoImplicit false

open Ledger (versionOf)

/-- When a call is accepted. -/
def Admits (s : Store) : Call → Prop
  | .insert record =>
    record.isCreated = true ∧ record.version = 0 ∧ record.IsConsistent ∧ s.load record.sku = none
  | .swap candidate expected =>
    candidate.IsConsistent ∧ ∃ current, s.load candidate.sku = some current ∧
      expected.matches current.version = true ∧ current.id = candidate.id

/-- How the calls accepted for a unit, oldest first, have led to its stored record. -/
structure Account (past : List Call) (r : StockRecord) : Prop where
  consistent : r.IsConsistent
  history : ∃ first swaps, past = .insert first :: swaps ∧
    (∀ c ∈ swaps, c.isSwap = true) ∧ r.id = first.id ∧ r.version = 1 + swaps.length
  latest : ∃ c, past.getLast? = some c ∧ r = c.record.atVersion r.version

/-- Every stored record is accounted for under its unit, and for no other unit
has a call been accepted. -/
structure Recorded (past : List Call) (s : Store) : Prop where
  filed : ∀ sku r, s.load sku = some r → r.sku = sku ∧ Account (Call.ofUnit sku past) r
  absent : ∀ sku, s.load sku = none → Call.ofUnit sku past = []

variable {s next : Store} {c : Call} {stored : StockRecord} {past : List Call}

/-! ## One call -/

theorem call_eq_ok_iff_attempt :
    s.call c = (.ok stored, next) ↔ s.attempt c = .ok (stored, next) := by
  unfold call
  cases s.attempt c with
  | error e => simp
  | ok p => simp [Prod.ext_iff]

theorem call_eq_ok_iff : s.call c = (.ok stored, next) ↔
    s.Admits c ∧ stored = c.record.atVersion (versionOf (s.load c.sku) + 1) ∧
      next = s.put stored := by
  rw [call_eq_ok_iff_attempt]
  cases c with
  | insert record =>
    show s.insert record = _ ↔ _ ∧ stored = record.atVersion (versionOf (s.load record.sku) + 1) ∧ _
    rw [insert_eq_ok_iff]
    constructor
    · rintro ⟨h1, h2, h3, h4, h5, h6⟩
      exact ⟨⟨h1, h2, h3, h4⟩, by rw [h4]; exact h5, by rw [h5]; exact h6⟩
    · rintro ⟨⟨h1, h2, h3, h4⟩, h5, h6⟩
      rw [h4] at h5
      exact ⟨h1, h2, h3, h4, h5, h6.trans (congrArg s.put h5)⟩
  | swap candidate expected =>
    show s.swap candidate expected = _ ↔
        _ ∧ stored = candidate.atVersion (versionOf (s.load candidate.sku) + 1) ∧ _
    rw [swap_eq_ok_iff]
    constructor
    · rintro ⟨h1, current, h2, h3, h4, h5, h6⟩
      exact ⟨⟨h1, current, h2, h3, h4⟩, by rw [h2]; exact h5, by rw [h5]; exact h6⟩
    · rintro ⟨⟨h1, current, h2, h3, h4⟩, h5, h6⟩
      rw [h2] at h5
      exact ⟨h1, current, h2, h3, h4, h5, h6.trans (congrArg s.put h5)⟩

theorem exists_call_eq_ok_iff : (∃ stored, (s.call c).1 = .ok stored) ↔ s.Admits c := by
  constructor
  · rintro ⟨stored, h⟩
    exact (call_eq_ok_iff.1 (Prod.ext h rfl)).1
  · intro h
    exact ⟨_, congrArg Prod.fst (call_eq_ok_iff.2 ⟨h, rfl, rfl⟩)⟩

theorem snd_call_of_error {e : StoreError} (h : (s.call c).1 = .error e) : (s.call c).2 = s := by
  unfold call at h ⊢
  cases ha : s.attempt c with
  | error d => rfl
  | ok p =>
    rw [ha] at h
    cases h

theorem run_cons_of_ok (h : s.call c = (.ok stored, next)) (cs : List Call) :
    s.run (c :: cs) = next.run cs ∧ s.accepted (c :: cs) = c :: next.accepted cs := by
  simp [run, accepted, h]

theorem run_cons_of_error {e : StoreError} (h : s.call c = (.error e, next)) (cs : List Call) :
    s.run (c :: cs) = s.run cs ∧ s.accepted (c :: cs) = s.accepted cs := by
  have s1 : (s.call c).2 = s := snd_call_of_error (congrArg Prod.fst h)
  rw [h] at s1
  simp [run, accepted, h, show next = s from s1]

/-! ## Accounts -/

theorem Call.ofUnit_append (sku : SkuCode) (past : List Call) (c : Call) :
    Call.ofUnit sku (past ++ [c]) = if c.sku = sku then Call.ofUnit sku past ++ [c]
      else Call.ofUnit sku past := by
  unfold Call.ofUnit
  rw [List.filter_append]
  by_cases h : c.sku = sku <;> simp [h]

theorem Account.insert {record : StockRecord} (h : record.IsConsistent) :
    Account [.insert record] (record.atVersion 1) where
  consistent := h
  history := ⟨record, [], rfl, fun _ hc => absurd hc List.not_mem_nil, rfl, rfl⟩
  latest := ⟨.insert record, rfl, rfl⟩

theorem Account.swap {current candidate : StockRecord} (h : Account past current)
    (hc : candidate.IsConsistent) (hi : current.id = candidate.id) (expected : ExpectedVersion) :
    Account (past ++ [.swap candidate expected]) (candidate.atVersion (current.version + 1)) where
  consistent := hc
  history := by
    obtain ⟨first, swaps, rfl, hs, h1, h2⟩ := h.history
    refine ⟨first, swaps ++ [.swap candidate expected], rfl, fun c hm => ?_, hi.symm.trans h1, ?_⟩
    · rcases List.mem_append.1 hm with hm | hm
      · exact hs c hm
      · cases List.mem_singleton.1 hm
        rfl
    · show current.version + 1 = _
      rw [h2, List.length_append, List.length_singleton]
      omega
  latest := ⟨.swap candidate expected, List.getLast?_concat, rfl⟩

theorem recorded_empty : Recorded [] .empty where
  filed _ _ h := by cases h
  absent _ _ := rfl

/-- One step: an accepted call goes to the account of its unit and to no other. -/
theorem Recorded.call (h : Recorded past s) (hc : s.call c = (.ok stored, next)) :
    Recorded (past ++ [c]) next := by
  obtain ⟨ha, hs, rfl⟩ := call_eq_ok_iff.1 hc
  have hk : stored.sku = c.sku := by
    rw [hs]
    rfl
  have own : Account (Call.ofUnit c.sku past ++ [c]) stored := by
    cases c with
    | insert record =>
      obtain ⟨-, -, h3, h4⟩ := ha
      change stored = record.atVersion (versionOf (s.load record.sku) + 1) at hs
      rw [h4] at hs
      rw [hs, show Call.ofUnit (Call.insert record).sku past = [] from h.absent _ h4]
      exact Account.insert h3
    | swap candidate expected =>
      obtain ⟨h1, current, h2, -, h4⟩ := ha
      change stored = candidate.atVersion (versionOf (s.load candidate.sku) + 1) at hs
      rw [h2] at hs
      rw [hs]
      exact (h.filed _ current h2).2.swap h1 h4 expected
  refine ⟨fun sku r hr => ?_, fun sku hr => ?_⟩
  · rw [load_put, hk] at hr
    rw [Call.ofUnit_append]
    by_cases e : sku = c.sku
    · rw [if_pos e] at hr
      cases hr
      rw [if_pos e.symm, e]
      exact ⟨hk, own⟩
    · rw [if_neg e] at hr
      rw [if_neg fun e' => e e'.symm]
      exact h.filed sku r hr
  · rw [load_put, hk] at hr
    by_cases e : sku = c.sku
    · rw [if_pos e] at hr
      cases hr
    · rw [if_neg e] at hr
      rw [Call.ofUnit_append, if_neg fun e' => e e'.symm]
      exact h.absent sku hr

theorem Recorded.run (h : Recorded past s) (cs : List Call) :
    Recorded (past ++ s.accepted cs) (s.run cs) := by
  induction cs generalizing past s with
  | nil =>
    rw [accepted, List.append_nil]
    exact h
  | cons c cs ih =>
    rcases hc : s.call c with ⟨_ | stored, next⟩
    case error e =>
      obtain ⟨h1, h2⟩ := run_cons_of_error hc cs
      rw [h1, h2]
      exact ih h
    case ok =>
      obtain ⟨h1, h2⟩ := run_cons_of_ok hc cs
      have s1 := ih (h.call hc)
      rw [List.append_assoc, List.singleton_append] at s1
      rw [h1, h2]
      exact s1

theorem recorded_run (cs : List Call) : Recorded (empty.accepted cs) (empty.run cs) :=
  recorded_empty.run cs

/-! ## Listings -/

theorem Recorded.mem_scan_iff (h : Recorded past s) (r : StockRecord) :
    r ∈ s.scan ↔ s.load r.sku = some r :=
  Store.mem_scan_iff fun sku r hr => (h.filed sku r hr).1

theorem Recorded.ascending_scan (h : Recorded past s) :
    s.scan.Pairwise fun a b => Text.utf8 a.sku.text < Text.utf8 b.sku.text :=
  (Store.ascending_scan fun sku r hr => (h.filed sku r hr).1).imp Text.utf8_lt_iff.2

/-! ## Runs -/

/-- What is true of a store whenever the given calls have been accepted: the account of its records,
what the next call does to it, and its listing. -/
structure Conforms (accepted : List Call) (s : Store) : Prop extends Recorded accepted s where
  admits : ∀ c, (∃ stored, (s.call c).1 = .ok stored) ↔ s.Admits c
  written : ∀ c stored next, s.call c = (.ok stored, next) →
    stored = c.record.atVersion (versionOf (s.load c.sku) + 1) ∧ next.load c.sku = some stored ∧
      ∀ sku, sku ≠ c.sku → next.load sku = s.load sku
  refused : ∀ c e next, s.call c = (.error e, next) → next = s
  listed : ∀ r, r ∈ s.scan ↔ s.load r.sku = some r
  ascending : s.scan.Pairwise fun a b => Text.utf8 a.sku.text < Text.utf8 b.sku.text

/-- Whatever a store is asked to write, in any order and under any expectations, it conforms. -/
theorem conforms_run (cs : List Call) : (empty.run cs).Conforms (empty.accepted cs) := by
  have hr := recorded_run cs
  refine { hr with
    admits := fun c => exists_call_eq_ok_iff
    written := fun c stored next hc => ?_
    refused := fun c e next hc => ?_
    listed := hr.mem_scan_iff
    ascending := hr.ascending_scan }
  · obtain ⟨-, hs, rfl⟩ := call_eq_ok_iff.1 hc
    have hk : stored.sku = c.sku := by
      rw [hs]
      rfl
    refine ⟨hs, ?_, fun sku h => ?_⟩
    · rw [load_put, if_pos hk.symm]
    · rw [load_put, if_neg fun e => h (e.trans hk)]
  · have s1 := snd_call_of_error (congrArg Prod.fst hc)
    rw [hc] at s1
    exact s1

/-! ## Creation -/

def AllCreated (s : Store) : Prop :=
  (∀ sku r, s.load sku = some r → r.isCreated = true) ∧ ∀ r ∈ s.scan, r.isCreated = true

/-- Insertions are only of created records, but swaps need not be: a stored record is created just
if the last call accepted for its unit was of a created record. -/
theorem allCreated_run_iff (cs : List Call) : (empty.run cs).AllCreated ↔
    ∀ sku c, (Call.ofUnit sku (empty.accepted cs)).getLast? = some c →
      c.record.isCreated = true := by
  have hr := recorded_run cs
  constructor
  · intro h sku c hc
    cases hl : (empty.run cs).load sku with
    | none =>
      rw [hr.absent sku hl] at hc
      cases hc
    | some r =>
      obtain ⟨d, hd, e⟩ := (hr.filed sku r hl).2.latest
      rw [hd] at hc
      cases hc
      have s1 := h.1 sku r hl
      rw [e] at s1
      exact s1
  · intro h
    have created : ∀ sku r, (empty.run cs).load sku = some r → r.isCreated = true := by
      intro sku r hl
      obtain ⟨d, hd, e⟩ := (hr.filed sku r hl).2.latest
      rw [e]
      exact h sku d hd
    exact ⟨created, fun r hm => created r.sku r ((hr.mem_scan_iff r).1 hm)⟩

def bolts : StockRecord :=
  let details : ItemDetails := ⟨⟨.ofNat 2⟩, 5, .standard, none, none, none⟩
  ((StockRecord.empty ⟨.ofNat 1⟩ ⟨"BOLT"⟩).start details
    ((Timestamp.make? 0 0 0).get (by decide))).derive

/-- The insertion of a unit, and a swap for the record that the unit had before it was created. -/
def blanking : List Call := [.insert bolts, .swap (StockRecord.empty ⟨.ofNat 1⟩ ⟨"BOLT"⟩) .any]

theorem not_allCreated_blanking : ¬(empty.run blanking).AllCreated := by
  intro h
  have stored : ((empty.run blanking).load ⟨"BOLT"⟩).map StockRecord.isCreated = some false := by
    decide +kernel
  obtain ⟨r, hr, hc⟩ := Option.map_eq_some_iff.1 stored
  cases hc.symm.trans (h.1 _ r hr)

end Stockroom.Store
