import Stockroom.Proofs.Movement.Drainage
import Stockroom.Proofs.Movement.Worth

/-! Corrections add up. Each of them is checked for the number of units that it leaves on hand, and
for that number alone: what is reserved and what a unit costs stay as they are. So of corrections
that are accepted one after the other the last check is also that of the one correction by their
sum, whatever numbers were on hand in between. -/
namespace Stockroom
set_option autoImplicit false

structure Correction where
  delta : Int
  reason : Option String
  reference : Option String
  moment : Timestamp

namespace Correction

def command (a : Correction) : Command := ⟨.adjust a.delta a.reason a.reference, a.moment⟩

def sum (as : List Correction) : Int := total (as.map delta)

end Correction

namespace StockRecord

/-- The same units, of the same value and in the same reservations. -/
structure SameStock (r s : StockRecord) : Prop extends r.SameCounters s where
  totalValue : s.totalValue = r.totalValue
  reservations : s.reservations = r.reservations

/-- A number of units that a record can have on hand, with what is reserved of
it and at its unit cost. -/
structure CanHold (r : StockRecord) (n : Int) : Prop where
  fits : fitsInt64 n = true
  reserved_le : r.reserved ≤ n
  valued : ∀ cost ∈ r.unitCost, (cost.timesInt? n).isSome = true

/-- The record corrected by so many units in all. -/
structure Corrects (r s : StockRecord) (delta : Int) : Prop where
  onHand : s.onHand = r.onHand + delta
  reserved : s.reserved = r.reserved
  unitCost : s.unitCost = r.unitCost
  reservations : s.reservations = r.reservations

variable {r s t next : StockRecord} {a b : Correction} {as : List Correction} {es : List Event}
  {n m : Int}

theorem Corrects.refl (r : StockRecord) : r.Corrects r 0 := ⟨(Int.add_zero _).symm, rfl, rfl, rfl⟩

theorem Corrects.trans (h1 : r.Corrects s n) (h2 : s.Corrects t m) : r.Corrects t (n + m) where
  onHand := by
    rw [h2.onHand, h1.onHand]
    omega
  reserved := h2.reserved.trans h1.reserved
  unitCost := h2.unitCost.trans h1.unitCost
  reservations := h2.reservations.trans h1.reservations

/-- Corrections leave alone what decides about the number of units. -/
theorem Corrects.canHold_iff (h : r.Corrects s n) : s.CanHold m ↔ r.CanHold m := by
  constructor
  · rintro ⟨h1, h2, h3⟩
    exact ⟨h1, h.reserved ▸ h2, h.unitCost ▸ h3⟩
  · rintro ⟨h1, h2, h3⟩
    exact ⟨h1, h.reserved.symm ▸ h2, h.unitCost.symm ▸ h3⟩

theorem Corrects.sameStock (hs : s.WellFormed) (ht : t.WellFormed) (h1 : r.Corrects s n)
    (h2 : r.Corrects t n) : s.SameStock t := by
  have onHand : t.onHand = s.onHand := h2.onHand.trans h1.onHand.symm
  have reserved : t.reserved = s.reserved := h2.reserved.trans h1.reserved.symm
  refine ⟨hs.sameCounters ht onHand reserved, ?_, h2.reservations.trans h1.reservations.symm⟩
  rw [ht.valued, hs.valued, onHand, h2.unitCost, h1.unitCost]

/-! ## One correction -/

theorem isSome_stockValue_iff {unitCost : Option Decimal} :
    (unitCost.isSome = true → (stockValue unitCost n).isSome = true) ↔
      ∀ cost ∈ unitCost, (cost.timesInt? n).isSome = true := by
  cases unitCost <;> simp [stockValue]

theorem WellFormed.eventsFor_correction_eq_ok_iff (h : r.WellFormed) :
    r.eventsFor a.command = .ok es ↔
    (r.isCreated = true ∧ a.delta ≠ 0 ∧ r.CanHold (r.onHand + a.delta)) ∧
      es = [⟨.adjusted a.delta a.reason a.reference, a.moment⟩] := by
  have s1 := h.sound.reserved_nonneg
  show r.decideAdjust a.delta a.reason a.reference a.moment = .ok es ↔ _
  rw [decideAdjust_eq_ok_iff, isSome_stockValue_iff]
  constructor
  · rintro ⟨hc, h0, h1, ⟨-, h2⟩, h3, he⟩
    exact ⟨⟨hc, h0, h1, h2, h3⟩, he⟩
  · rintro ⟨⟨hc, h0, h1, h2, h3⟩, he⟩
    exact ⟨hc, h0, h1, ⟨by omega, h2⟩, h3, he⟩

theorem WellFormed.accepts_correction_iff (h : r.WellFormed) : r.Accepts a.command ↔
    r.isCreated = true ∧ a.delta ≠ 0 ∧ r.CanHold (r.onHand + a.delta) := by
  rw [accepts_iff]
  simp only [h.eventsFor_correction_eq_ok_iff, exists_and_left, exists_eq, and_true]

theorem WellFormed.corrects_execute (h : r.WellFormed) (he : r.execute a.command = .ok (next, es)) :
    r.Corrects next a.delta := by
  obtain ⟨hd, rfl⟩ := execute_eq_ok_iff.1 he
  obtain ⟨-, rfl⟩ := h.eventsFor_correction_eq_ok_iff.1 hd
  show r.Corrects { r.adjust a.delta a.moment with updatedAt := some a.moment }.derive a.delta
  rw [adjust_eq]
  exact ⟨rfl, rfl, rfl, rfl⟩

/-- What is on hand can be on hand, once any number of units no less can. -/
theorem WellFormed.canHold_onHand (h : r.WellFormed) (hv : r.Valuable) (hn : 0 ≤ n)
    (hf : fitsInt64 (r.onHand + n) = true) : r.CanHold r.onHand where
  fits := fitsInt64_of_le (h.sound.reserved_nonneg.trans h.sound.reserved_le) (by omega) hf
  reserved_le := h.sound.reserved_le
  valued := isSome_stockValue_iff.1 hv

theorem WellFormed.accepts_undoing (h : r.WellFormed) (hv : r.Valuable) (h0 : 0 < a.delta)
    (he : r.execute a.command = .ok (next, es)) (hb : b.delta = -a.delta) :
    next.Accepts b.command := by
  obtain ⟨-, -, held⟩ := h.accepts_correction_iff.1 ⟨next, es, he⟩
  have corrected := h.corrects_execute he
  have back : next.onHand + b.delta = r.onHand := by
    rw [corrected.onHand, hb]
    omega
  refine (h.execute he).accepts_correction_iff.2 ⟨isCreated_execute he, by omega, ?_⟩
  rw [back, corrected.canHold_iff]
  exact h.canHold_onHand hv (Int.le_of_lt h0) held.fits

/-! ## Many -/

/-- After corrections that are all accepted, the number of units on hand has been checked,
unless there were none. -/
theorem WellFormed.corrects_run (h : r.WellFormed)
    (all : r.AcceptsAll (as.map Correction.command)) :
    r.Corrects (r.run (as.map Correction.command)) (Correction.sum as) ∧
      (as = [] ∨ r.isCreated = true ∧ r.CanHold (r.onHand + Correction.sum as)) := by
  induction as generalizing r with
  | nil => exact ⟨.refl r, .inl rfl⟩
  | cons a as ih =>
    obtain ⟨next, es, he, rest⟩ := acceptsAll_cons_iff.1 all
    obtain ⟨created, -, held⟩ := h.accepts_correction_iff.1 ⟨next, es, he⟩
    have first := h.corrects_execute he
    -- the check of `a` itself is passed over: that of the last one is for the whole sum
    obtain ⟨later, last⟩ := ih (h.execute he) rest
    rw [List.map_cons, (run_cons_of_ok he _).1]
    refine ⟨first.trans later, .inr ⟨created, ?_⟩⟩
    obtain rfl | ⟨-, last⟩ := last
    · show r.CanHold (r.onHand + (a.delta + 0))
      rwa [Int.add_zero]
    · rw [first.canHold_iff, first.onHand, Int.add_assoc] at last
      exact last

/-- How corrections of a record add up. -/
structure AddsUp (r : StockRecord) : Prop where
  accepts_iff : ∀ a : Correction, r.Accepts a.command ↔
    r.isCreated = true ∧ a.delta ≠ 0 ∧ r.CanHold (r.onHand + a.delta)
  joined : ∀ (as : List Correction) (a : Correction),
    r.AcceptsAll (as.map Correction.command) → a.delta = Correction.sum as → a.delta ≠ 0 →
      ∃ next es, r.execute a.command = .ok (next, es) ∧
        next.SameStock (r.run (as.map Correction.command))
  cancelled : ∀ as : List Correction, r.AcceptsAll (as.map Correction.command) →
    Correction.sum as = 0 → r.SameStock (r.run (as.map Correction.command))
  fits : ∀ as : List Correction, r.AcceptsAll (as.map Correction.command) →
    fitsInt64 r.onHand = true → fitsInt64 (Correction.sum as) = true
  undone : ∀ (a b : Correction) next es, 0 < a.delta →
    r.execute a.command = .ok (next, es) → b.delta = -a.delta → next.Accepts b.command

theorem WellFormed.addsUp (h : r.WellFormed) (hv : r.Valuable) : r.AddsUp where
  accepts_iff _ := h.accepts_correction_iff
  joined as a all ha h0 := by
    obtain ⟨corrected, last⟩ := h.corrects_run all
    obtain rfl | ⟨created, held⟩ := last
    · exact absurd ha h0
    · rw [← ha] at corrected held
      obtain ⟨next, es, he⟩ := h.accepts_correction_iff.2 ⟨created, h0, held⟩
      exact ⟨next, es, he, (h.corrects_execute he).sameStock (h.execute he) (h.run _) corrected⟩
  cancelled as all none := by
    obtain ⟨corrected, -⟩ := h.corrects_run all
    rw [none] at corrected
    exact (Corrects.refl r).sameStock h (h.run _) corrected
  fits as all hf := by
    have s1 := h.sound.reserved_nonneg
    have s2 := h.sound.reserved_le
    obtain ⟨-, rfl | ⟨-, held⟩⟩ := h.corrects_run all
    · rfl
    · have s3 := held.fits
      have s4 := held.reserved_le
      rw [fitsInt64_iff] at hf s3 ⊢
      omega
  undone _ _ _ _ h0 he hb := h.accepts_undoing hv h0 he hb

/-- However a record is run, corrections that are accepted one after the other come to one
correction by their sum, or to none. -/
theorem addsUp_run (id : RecordId) (sku : SkuCode) (cs : List Command) :
    ((empty id sku).run cs).AddsUp :=
  ((wellFormed_empty id sku).run cs).addsUp (valuable_run id sku cs)

end StockRecord

end Stockroom
