import Stockroom.Proofs.Movement.Drainage
import Stockroom.Proofs.Movement.Reclaim
import Stockroom.Record.Status

/-! What fits. A booking is granted if there is room for it on hand beside the holds that are not
past their expiry. No record keeps that number, and no decision counts those holds: it adds to what
is available what a sweep would give back. The two come to the same because the holds that have
expired and those that have not are together all that is reserved. -/
namespace Stockroom
set_option autoImplicit false

/-- A request for units to be held under a key. -/
structure Booking where
  id : ReservationId
  quantity : Int
  notes : Option String
  expiresAt : Option Timestamp
  moment : Timestamp

def Booking.command (b : Booking) : Command :=
  ⟨.reserve b.id b.quantity b.notes b.expiresAt, b.moment⟩

def Reservation.isLiveAt (x : Reservation) (now : Timestamp) : Bool :=
  x.isHeld && !x.isExpiredAt now

namespace StockRecord

/-- The units that are held by reservations not past their expiry. -/
def heldLive (r : StockRecord) (now : Timestamp) : Int :=
  total ((r.reservations.values.filter fun x => x.isLiveAt now).map Reservation.quantity)

def room (r : StockRecord) (now : Timestamp) : Int := r.onHand - r.heldLive now

/-- All that is asked of a record and a booking, but for the room. -/
structure Admits (r : StockRecord) (b : Booking) : Prop where
  created : r.isCreated = true
  active : r.isActive = true
  positive : 0 < b.quantity
  later : ∀ t ∈ b.expiresAt, b.moment ≤ t ∧ b.moment ≠ t
  fresh : r.reservation? b.id = none

/-- The record after a booking: what has expired is released, what is booked is held, and
the rest is as it was. -/
structure Books (r next : StockRecord) (b : Booking) : Prop where
  reservation? : ∀ k, next.reservation? k =
    if k = b.id then some (.place b.id b.quantity b.notes b.moment b.expiresAt)
    else (r.reservation? k).map fun x =>
      if x.isStaleAt b.moment then
        { x with
          state := .released
          quantity := 0
          closedAt := some b.moment
          releaseReason := some .expired }
      else x
  onHand : next.onHand = r.onHand
  reserved : next.reserved = r.heldLive b.moment + b.quantity

variable {r next : StockRecord} {b : Booking} {es : List Event}

/-! ## Room -/

theorem Covered.reserved_eq (h : r.Covered) (now : Timestamp) :
    r.reserved = r.heldLive now + r.reclaimable now := by
  have s1 := Reservation.total_filter_isHeld r.reservations.values
  -- every hold is live or stale, and nothing else is either
  have s2 := total_filter_add Reservation.quantity (fun x => x.isLiveAt now)
    (r.reservations.values.filter Reservation.isHeld)
  have live : ∀ x : Reservation, (x.isLiveAt now && x.isHeld) = x.isLiveAt now := by
    intro x
    cases hx : x.isHeld <;> simp [Reservation.isLiveAt, hx]
  have stale : ∀ x : Reservation, (!x.isLiveAt now && x.isHeld) = x.isStaleAt now := by
    intro x
    cases hx : x.isHeld <;> simp [Reservation.isLiveAt, Reservation.isStaleAt, hx]
  rw [List.filter_filter, List.filter_filter] at s2
  simp only [live, stale] at s2
  have s3 := h.heldTotal_eq
  unfold heldTotal at s3
  unfold heldLive reclaimable staleHolds
  omega

theorem WellFormed.room_eq (h : r.WellFormed) (now : Timestamp) :
    r.room now = r.available + r.reclaimable now := by
  have s1 := h.available_eq
  have s2 := h.sound.covered.reserved_eq now
  unfold room
  omega

/-! ## Decision -/

theorem expiry_later_iff {expiresAt : Option Timestamp} {now : Timestamp} :
    (∀ t ∈ expiresAt, ¬t ≤ now) ↔ ∀ t ∈ expiresAt, now ≤ t ∧ now ≠ t := by
  simp only [Timestamp.not_le_iff]

theorem WellFormed.eventsFor_booking_eq_ok_iff (h : r.WellFormed) :
    r.eventsFor b.command = .ok es ↔ (r.Admits b ∧ b.quantity ≤ r.room b.moment) ∧
      es = r.expiryEvents b.moment ++
        [⟨.reserved b.id b.quantity b.notes b.expiresAt, b.moment⟩] := by
  show r.decideReserve b.id b.quantity b.notes b.expiresAt b.moment = .ok es ↔ _
  rw [decideReserve_eq_ok_iff, expiry_later_iff, h.room_eq]
  constructor
  · rintro ⟨h0, hc, ha, hl, hn, hq, he⟩
    exact ⟨⟨⟨hc, ha, h0, hl, hn⟩, hq⟩, he⟩
  · rintro ⟨⟨⟨hc, ha, h0, hl, hn⟩, hq⟩, he⟩
    exact ⟨h0, hc, ha, hl, hn, hq, he⟩

/-- Where everything else is in order, what decides is the room. -/
theorem WellFormed.execute_eq_insufficientStock (h : r.WellFormed) (ha : r.Admits b)
    (hq : r.room b.moment < b.quantity) :
    r.execute b.command = .error (.insufficientStock b.quantity (r.room b.moment)) := by
  have later := expiry_later_iff.2 ha.later
  have tight : ¬b.quantity ≤ r.available + r.reclaimable b.moment := by
    rw [← h.room_eq]
    omega
  refine execute_eq_error_iff.2 ?_
  show r.decideReserve b.id b.quantity b.notes b.expiresAt b.moment = _
  unfold decideReserve ensurePositive ensureCreated
  rw [ensure_bind_of ha.positive, ensure_bind_of ha.created,
    ensure_bind_of ha.active, ensure_bind_of later, ensureFresh_eq_ok_iff.2 ha.fresh, h.room_eq]
  exact ensure_bind_of_not tight _ _

/-! ## Execution -/

theorem WellFormed.books_execute (h : r.WellFormed)
    (he : r.execute b.command = .ok (next, es)) : r.Books next b := by
  obtain ⟨hd, rfl⟩ := execute_eq_ok_iff.1 he
  obtain ⟨⟨ha, -⟩, rfl⟩ := h.eventsFor_booking_eq_ok_iff.1 hd
  -- what is booked is placed on the record that a sweep at that moment leaves
  rw [applyAll_append]
  have s1 : (r.swept b.moment).onHand = r.onHand := onHand_lapses r (r.staleHolds b.moment) b.moment
  have s2 : (r.swept b.moment).reserved = r.reserved - r.reclaimable b.moment :=
    reserved_lapses r (r.staleHolds b.moment) b.moment
  have s3 := h.sound.covered.reserved_eq b.moment
  refine ⟨fun k => ?_, s1, ?_⟩
  · refine (reservation?_insert (r.swept b.moment).reservations b.id k _).trans ?_
    by_cases hk : k = b.id
    · rw [if_pos hk, if_pos hk]
    · rw [if_neg hk, if_neg hk]
      exact h.sound.reservation?_swept k
  · show (r.swept b.moment).reserved + b.quantity = r.heldLive b.moment + b.quantity
    omega

theorem reclaimable_eq_zero {now : Timestamp}
    (h : ∀ k x, r.reservation? k = some x → x.isStaleAt now = false) : r.reclaimable now = 0 := by
  have none : r.staleHolds now = [] := by
    refine List.eq_nil_iff_forall_not_mem.2 fun x hx => ?_
    obtain ⟨⟨k, hk⟩, hs⟩ := mem_staleHolds_iff.1 hx
    cases hs.symm.trans (h k x hk)
  rw [reclaimable, none]
  rfl

/-! ## Runs -/

/-- How a booking fares on a record. -/
structure Fares (r : StockRecord) (b : Booking) : Prop where
  accepts_iff : r.Accepts b.command ↔ r.Admits b ∧ b.quantity ≤ r.room b.moment
  refused : r.Admits b → r.room b.moment < b.quantity →
    r.execute b.command = .error (.insufficientStock b.quantity (r.room b.moment))
  books : ∀ next es, r.execute b.command = .ok (next, es) → r.Books next b
  accepts_iff_canFulfill :
    (∀ k x, r.reservation? k = some x → x.isStaleAt b.moment = false) → r.Admits b →
    (r.Accepts b.command ↔ r.canFulfill b.quantity = true)

theorem WellFormed.fares (h : r.WellFormed) (b : Booking) : r.Fares b := by
  have fits : r.Accepts b.command ↔ r.Admits b ∧ b.quantity ≤ r.room b.moment := by
    rw [StockRecord.accepts_iff]
    simp only [h.eventsFor_booking_eq_ok_iff, exists_and_left, exists_eq, and_true]
  refine ⟨fits, h.execute_eq_insufficientStock,
    fun next es he => h.books_execute he, fun none ha => ?_⟩
  rw [fits, h.room_eq, reclaimable_eq_zero none, Int.add_zero, canFulfill, decide_eq_true_iff]
  exact and_iff_right ha

/-- However a record is run, a booking is accepted of it just if it is in order
and there is room for it. -/
theorem fares_run (id : RecordId) (sku : SkuCode) (cs : List Command) (b : Booking) :
    ((empty id sku).run cs).Fares b :=
  ((wellFormed_empty id sku).run cs).fares b

end StockRecord

end Stockroom
