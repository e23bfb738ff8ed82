import Stockroom.Movement.Application
import Stockroom.Numeric.Word
import Stockroom.Proofs.Text.KeyMap

/-! Well-formed records. Consistency alone is not kept by single changes: it bounds the held
quantities only in their sum. A record is well-formed if beyond that each of its reservations is
filed under its own key and is in order by itself, and if the particulars fit its being created or
not. A change that fits a well-formed record leads to a well-formed one. -/
namespace Stockroom
set_option autoImplicit false

/-! ## Reservations -/

/-- What a reservation may look like in each of its states. -/
structure Reservation.WellFormed (x : Reservation) : Prop where
  held : x.state = .held → 0 < x.quantity ∧
    x.quantity ≤ x.originalQuantity ∧ x.consumedQuantity = 0 ∧
    x.closedAt = none ∧ x.releaseReason = none
  consumed : x.state = .consumed → x.quantity = 0 ∧ 0 < x.consumedQuantity ∧
    x.consumedQuantity ≤ x.originalQuantity ∧ x.closedAt.isSome = true ∧ x.releaseReason = none
  released : x.state = .released →
    x.quantity = 0 ∧ x.consumedQuantity = 0 ∧ x.closedAt.isSome = true ∧
    x.releaseReason.isSome = true

namespace Reservation

theorem isHeld_iff (x : Reservation) : x.isHeld = true ↔ x.state = .held := by simp [isHeld]

theorem heldQuantity_of_isHeld {x : Reservation} (h : x.isHeld = true) :
    x.heldQuantity = x.quantity := by
  rw [heldQuantity, if_pos h]

/-- Only held reservations count towards what is held. -/
theorem total_filter_isHeld (xs : List Reservation) :
    total ((xs.filter isHeld).map quantity) = total (xs.map heldQuantity) := by
  induction xs with
  | nil => rfl
  | cons x xs ih =>
    rw [List.filter_cons, List.map_cons, total_cons, heldQuantity, ← ih]
    split
    · rfl
    · exact (Int.zero_add _).symm

theorem WellFormed.heldQuantity_nonneg {x : Reservation}
    (h : x.WellFormed) : 0 ≤ x.heldQuantity := by
  unfold heldQuantity
  split
  · rename_i hx
    exact Int.le_of_lt (h.held ((isHeld_iff x).1 hx)).1
  · exact Int.le_refl 0

theorem wellFormed_place (id : ReservationId) {q : Int} (notes : Option String) (t : Timestamp)
    (expiresAt : Option Timestamp) (h : 0 < q) : (place id q notes t expiresAt).WellFormed where
  held _ := ⟨h, Int.le_refl q, rfl, rfl, rfl⟩
  consumed e := by cases e
  released e := by cases e

theorem giveBack_of_eq {x : Reservation} {q : Int} (h : q = x.quantity) (reason : Option String)
    (t : Timestamp) :
    x.giveBack q reason t = { x with
      state := .released, quantity := 0, closedAt := some t, releaseReason :=
        some (.cancelled reason) } := by
  have h' : x.quantity - q = 0 := by omega
  simp only [giveBack, h', if_true, close]

theorem giveBack_of_ne {x : Reservation} {q : Int} (h : q ≠ x.quantity) (reason : Option String)
    (t : Timestamp) :
    x.giveBack q reason t = { x with quantity := x.quantity - q } := by
  have h' : x.quantity - q ≠ 0 := by omega
  simp only [giveBack, h', if_false]

theorem id_giveBack (x : Reservation) (q : Int) (reason : Option String) (t : Timestamp) :
    (x.giveBack q reason t).id = x.id := by
  by_cases h : q = x.quantity
  · rw [giveBack_of_eq h]
  · rw [giveBack_of_ne h]

theorem WellFormed.giveBack {x : Reservation} {q : Int} (h : x.WellFormed) (hh : x.isHeld = true)
    (h0 : 0 < q) (hq : q ≤ x.quantity) (reason : Option String) (t : Timestamp) :
    (x.giveBack q reason t).WellFormed := by
  obtain ⟨s1, s2, s3, s4, s5⟩ := h.held ((isHeld_iff x).1 hh)
  by_cases e : q = x.quantity
  · rw [giveBack_of_eq e]
    exact ⟨nofun, nofun, fun _ => ⟨rfl, s3, rfl, rfl⟩⟩
  · rw [giveBack_of_ne e]
    have hs := (isHeld_iff x).1 hh
    refine ⟨fun _ => ⟨?_, ?_, s3, s4, s5⟩, fun h => ?_, fun h => ?_⟩
    · show 0 < x.quantity - q
      omega
    · show x.quantity - q ≤ x.originalQuantity
      omega
    · cases hs.symm.trans h
    · cases hs.symm.trans h

theorem heldQuantity_giveBack {x : Reservation} {q : Int} (hh : x.isHeld = true)
    (reason : Option String) (t : Timestamp) :
    (x.giveBack q reason t).heldQuantity = x.quantity - q := by
  by_cases e : q = x.quantity
  · rw [giveBack_of_eq e, e, Int.sub_self]
    rfl
  · rw [giveBack_of_ne e]
    exact heldQuantity_of_isHeld hh

theorem WellFormed.consume {x : Reservation} {q : Int} (h : x.WellFormed) (hh : x.isHeld = true)
    (h0 : 0 < q) (hq : q ≤ x.quantity) (t : Timestamp) : (x.consume q t).WellFormed := by
  obtain ⟨s1, s2, s3, s4, s5⟩ := h.held ((isHeld_iff x).1 hh)
  exact ⟨nofun, fun _ => ⟨rfl, h0, Int.le_trans hq s2, rfl, s5⟩, nofun⟩

theorem WellFormed.expire {x : Reservation} (h : x.WellFormed) (hh : x.isHeld = true)
    (t : Timestamp) : (x.expire t).WellFormed := by
  obtain ⟨s1, s2, s3, s4, s5⟩ := h.held ((isHeld_iff x).1 hh)
  exact ⟨nofun, nofun, fun _ => ⟨rfl, s3, rfl, rfl⟩⟩

end Reservation

theorem sameWorth_refl (d : Option Decimal) : sameWorth d d = true := by
  cases d with
  | none => rfl
  | some d => exact d.sameValue_refl

namespace StockRecord

/-! ## Records -/

/-- The reserved units are on hand, and they are the held ones. -/
structure Covered (r : StockRecord) : Prop where
  reserved_nonneg : 0 ≤ r.reserved
  reserved_le : r.reserved ≤ r.onHand
  heldTotal_eq : r.heldTotal = r.reserved

/-- Both derived fields are as bringing them up to date would leave them, the
value up to its scale. -/
def UpToDate (r : StockRecord) : Prop :=
  r.available = max 0 (r.onHand - r.reserved) ∧
    sameWorth r.totalValue (stockValue r.unitCost r.onHand) = true

/-- Each reservation is filed under its own key. -/
def Keyed (r : StockRecord) : Prop := ∀ k x, r.reservation? k = some x → x.id = k

/-- Each reservation is filed under its own key, and no hold is of less than nothing. -/
def Orderly (r : StockRecord) : Prop :=
  ∀ k x, r.reservation? k = some x → x.id = k ∧ 0 ≤ x.heldQuantity

/-- What holds of the counters, the reservations and the particulars, whether or not the derived
fields are up to date. -/
structure Sound (r : StockRecord) : Prop where
  reserved_nonneg : 0 ≤ r.reserved
  reserved_le : r.reserved ≤ r.onHand
  heldTotal_eq : r.heldTotal = r.reserved
  entries : ∀ k x, r.reservation? k = some x → x.id = k ∧ x.WellFormed
  created : r.isCreated = true → (0 ≤ r.thresholds.lowStock ∧ 0 ≤ r.thresholds.restock) ∧
    ∀ cost ∈ r.unitCost, cost.isNegative = false
  uncreated : r.isCreated = false → r.onHand = 0 ∧ r.reserved = 0

/-- The reserved units are on hand and are the held ones, and no hold is of less than nothing. More
than that the sums of the engine do not rest on. -/
structure Accounted (r : StockRecord) : Prop where
  covered : r.Covered
  orderly : r.Orderly
  uncreated : r.isCreated = false → r.onHand = 0 ∧ r.reserved = 0

/-- A consistent record whose reservations are in order. -/
structure Admitted (r : StockRecord) : Prop where
  consistent : r.IsConsistent
  orderly : r.Orderly
  uncreated : r.isCreated = false → r.onHand = 0 ∧ r.reserved = 0

/-- A consistent record whose reservations are all in order and filed under their own keys. -/
structure WellFormed (r : StockRecord) : Prop where
  consistent : r.IsConsistent
  valued : r.totalValue = stockValue r.unitCost r.onHand
  keyed : ∀ e ∈ r.reservations.entries, e.2.id = e.1
  entries : ∀ e ∈ r.reservations.entries, e.2.WellFormed
  created : r.isCreated = true → (0 ≤ r.thresholds.lowStock ∧ 0 ≤ r.thresholds.restock) ∧
    ∀ cost ∈ r.unitCost, cost.isNegative = false
  uncreated : r.isCreated = false → r.onHand = 0 ∧ r.reserved = 0 ∧ r.available = 0

variable {r : StockRecord}

theorem isConsistent_iff_covered : r.IsConsistent ↔ r.Covered ∧ r.UpToDate := by
  rw [isConsistent_iff]
  constructor
  · rintro ⟨⟨s1, s2⟩, s3, s4, s5⟩
    exact ⟨⟨s1, s2, s5⟩, s3, s4⟩
  · rintro ⟨⟨s1, s2, s5⟩, s3, s4⟩
    exact ⟨⟨s1, s2⟩, s3, s4, s5⟩

theorem IsConsistent.covered (h : r.IsConsistent) : r.Covered := (isConsistent_iff_covered.1 h).1

theorem IsConsistent.available_eq (h : r.IsConsistent) : r.available = r.onHand - r.reserved := by
  obtain ⟨s1, s2, -⟩ := isConsistent_iff_covered.1 h
  have s3 := s1.reserved_le
  omega

theorem upToDate_derive (r : StockRecord) : r.derive.UpToDate := ⟨rfl, sameWorth_refl _⟩

theorem Sound.covered (h : r.Sound) : r.Covered :=
  ⟨h.reserved_nonneg, h.reserved_le, h.heldTotal_eq⟩

theorem Orderly.keyed (h : r.Orderly) : r.Keyed := fun k x hx => (h k x hx).1

theorem Sound.orderly (h : r.Sound) : r.Orderly := fun k x hx =>
  ⟨(h.entries k x hx).1, (h.entries k x hx).2.heldQuantity_nonneg⟩

theorem WellFormed.sound (h : r.WellFormed) : r.Sound := by
  obtain ⟨s1, s2, s3⟩ := h.consistent.covered
  refine ⟨s1, s2, s3, fun k x hx => ?_, h.created,
    fun hc => ⟨(h.uncreated hc).1, (h.uncreated hc).2.1⟩⟩
  have he := KeyMap.get?_eq_some_iff.1 hx
  exact ⟨h.keyed _ he, h.entries _ he⟩

theorem Sound.accounted (h : r.Sound) : r.Accounted := ⟨h.covered, h.orderly, h.uncreated⟩

theorem Admitted.accounted (h : r.Admitted) : r.Accounted :=
  ⟨h.consistent.covered, h.orderly, h.uncreated⟩

theorem WellFormed.admitted (h : r.WellFormed) : r.Admitted :=
  ⟨h.consistent, h.sound.orderly, h.sound.uncreated⟩

theorem WellFormed.available_eq (h : r.WellFormed) : r.available = r.onHand - r.reserved :=
  h.consistent.available_eq

/-- The same units on hand, reserved and available. -/
structure SameCounters (r s : StockRecord) : Prop where
  onHand : s.onHand = r.onHand
  reserved : s.reserved = r.reserved
  available : s.available = r.available

theorem WellFormed.sameCounters {s : StockRecord} (h : r.WellFormed) (hs : s.WellFormed)
    (h1 : s.onHand = r.onHand) (h2 : s.reserved = r.reserved) : r.SameCounters s :=
  ⟨h1, h2, by rw [hs.available_eq, h.available_eq, h1, h2]⟩

/-- Bringing the derived fields up to date completes a sound record. -/
theorem Sound.derive (h : r.Sound) : r.derive.WellFormed where
  consistent := isConsistent_iff_covered.2
    ⟨⟨h.reserved_nonneg, h.reserved_le, h.heldTotal_eq⟩, upToDate_derive r⟩
  valued := rfl
  keyed e he := (h.entries e.1 e.2 (KeyMap.get?_eq_some_iff.2 he)).1
  entries e he := (h.entries e.1 e.2 (KeyMap.get?_eq_some_iff.2 he)).2
  created := h.created
  uncreated hc := by
    obtain ⟨s1, s2⟩ := h.uncreated hc
    refine ⟨s1, s2, ?_⟩
    show max 0 (r.onHand - r.reserved) = 0
    omega

theorem wellFormed_empty (id : RecordId) (sku : SkuCode) : (empty id sku).WellFormed where
  consistent := isConsistent_empty id sku
  valued := rfl
  keyed e he := by cases he
  entries e he := by cases he
  created h := by cases h
  uncreated _ := ⟨rfl, rfl, rfl⟩

theorem WellFormed.atVersion (h : r.WellFormed) (v : Nat) : (r.atVersion v).WellFormed :=
  ⟨h.consistent, h.valued, h.keyed, h.entries, h.created, h.uncreated⟩

theorem Orderly.heldQuantity_nonneg (h : r.Orderly) {x : Reservation}
    (hx : x ∈ r.reservations.values) : 0 ≤ x.heldQuantity := by
  obtain ⟨k, hk⟩ := KeyMap.mem_values_iff.1 hx
  exact (h k x hk).2

/-- Where no hold is of less than nothing, a single one is at most all held units together. -/
theorem Orderly.heldQuantity_le_heldTotal (h : r.Orderly) {k : ReservationId} {x : Reservation}
    (hx : r.reservation? k = some x) : x.heldQuantity ≤ r.heldTotal := by
  refine le_total_of_mem (fun q hq => ?_) (List.mem_map.2 ⟨x, KeyMap.mem_values_iff.2 ⟨k, hx⟩, rfl⟩)
  obtain ⟨y, hy, rfl⟩ := List.mem_map.1 hq
  exact h.heldQuantity_nonneg hy

theorem Accounted.quantity_nonneg (h : r.Accounted) {k : ReservationId} {x : Reservation}
    (hx : r.reservation? k = some x) (hh : x.isHeld = true) : 0 ≤ x.quantity := by
  rw [← Reservation.heldQuantity_of_isHeld hh]
  exact (h.orderly k x hx).2

theorem Accounted.quantity_le_reserved (h : r.Accounted) {k : ReservationId} {x : Reservation}
    (hx : r.reservation? k = some x) (hh : x.isHeld = true) : x.quantity ≤ r.reserved := by
  have s1 := h.orderly.heldQuantity_le_heldTotal hx
  rw [Reservation.heldQuantity_of_isHeld hh, h.covered.heldTotal_eq] at s1
  exact s1

theorem Sound.quantity_pos (h : r.Sound) {k : ReservationId} {x : Reservation}
    (hx : r.reservation? k = some x) (hh : x.isHeld = true) : 0 < x.quantity :=
  ((h.entries k x hx).2.held ((Reservation.isHeld_iff x).1 hh)).1

theorem Sound.quantity_le_reserved (h : r.Sound) {k : ReservationId} {x : Reservation}
    (hx : r.reservation? k = some x) (hh : x.isHeld = true) : x.quantity ≤ r.reserved :=
  h.accounted.quantity_le_reserved hx hh

end StockRecord

end Stockroom
