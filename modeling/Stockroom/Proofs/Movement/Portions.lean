import Mathlib.Data.List.Induction
import Stockroom.Proofs.Movement.Capacity

/-! Giving back in portions. Of the releases of one hold every one but the last leaves it open, with
so much less in it, so they are taken from the end: the record before the last of them is known in
full, and one more release is one more step. What they come to is their sum; only the reason and the
moment of the one that closes the hold stay on record. -/
namespace Stockroom
set_option autoImplicit false

/-- A release of some of what is held under a key. -/
structure Portion where
  quantity : Int
  reason : Option String
  moment : Timestamp

namespace Portion

def event (k : ReservationId) (p : Portion) : Event := ⟨.released k p.quantity p.reason, p.moment⟩

def command (k : ReservationId) (p : Portion) : Command :=
  ⟨.release k p.quantity p.reason, p.moment⟩

def commands (k : ReservationId) (ps : List Portion) : List Command := ps.map (command k)

def sum (ps : List Portion) : Int := total (ps.map quantity)

theorem sum_append_singleton (ps : List Portion) (p : Portion) :
    sum (ps ++ [p]) = sum ps + p.quantity := by
  rw [sum, List.map_append, total_append]
  show total (ps.map quantity) + (p.quantity + 0) = _
  rw [Int.add_zero, sum]

theorem commands_append_singleton (k : ReservationId) (ps : List Portion) (p : Portion) :
    commands k (ps ++ [p]) = commands k ps ++ [p.command k] := List.map_append

end Portion

namespace Reservation

/-- Portions of no more than what is held. -/
structure Covers (x : Reservation) (ps : List Portion) : Prop where
  positive : ∀ p ∈ ps, 0 < p.quantity
  sum_le : Portion.sum ps ≤ x.quantity

/-- What is left of a hold when the portions have been given back. -/
structure Leaves (x y : Reservation) (ps : List Portion) : Prop where
  part : Portion.sum ps < x.quantity → y = { x with quantity := x.quantity - Portion.sum ps }
  whole : Portion.sum ps = x.quantity → ∃ last, ps.getLast? = some last ∧
    y = { x with
      state := .released
      quantity := 0
      closedAt := some last.moment
      releaseReason := some (.cancelled last.reason) }

variable {x y z : Reservation} {ps qs : List Portion} {p : Portion}

theorem leaves_nil (h : 0 < x.quantity) : x.Leaves x [] where
  part _ := by
    show x = { x with quantity := x.quantity - 0 }
    rw [Int.sub_zero]
  whole none := by
    have s1 : (0 : Int) = x.quantity := none
    omega

/-- Before the last of them the portions leave something. -/
theorem Covers.init (h : x.Covers (ps ++ [p])) :
    x.Covers ps ∧ 0 < p.quantity ∧ Portion.sum ps + p.quantity ≤ x.quantity := by
  have last : 0 < p.quantity := h.positive p (by simp)
  have bound := h.sum_le
  rw [Portion.sum_append_singleton] at bound
  exact ⟨⟨fun q hq => h.positive q (List.mem_append_left [p] hq), by omega⟩, last, bound⟩

theorem leaves_append_singleton (hy : y = { x with quantity := x.quantity - Portion.sum ps })
    (p : Portion) :
    x.Leaves (y.giveBack p.quantity p.reason p.moment) (ps ++ [p]) := by
  subst hy
  refine ⟨fun less => ?_, fun all => ⟨p, List.getLast?_concat, ?_⟩⟩
  · rw [Portion.sum_append_singleton] at less ⊢
    rw [giveBack_of_ne (by show p.quantity ≠ x.quantity - Portion.sum ps; omega)]
    simp only [Int.sub_sub]
  · rw [Portion.sum_append_singleton] at all
    rw [giveBack_of_eq (by show p.quantity = x.quantity - Portion.sum ps; omega)]

/-- Only the reason and the moment of the closing tell portions of one sum apart. -/
theorem Leaves.standing_eq (hy : x.Leaves y ps) (hz : x.Leaves z qs)
    (hc : x.Covers ps) (e : Portion.sum ps = Portion.sum qs) :
    y.state = z.state ∧ y.quantity = z.quantity := by
  rcases Int.lt_or_eq_of_le hc.sum_le with less | all
  · rw [hy.part less, hz.part (e ▸ less), e]
    exact ⟨rfl, rfl⟩
  · obtain ⟨last, -, rfl⟩ := hy.whole all
    obtain ⟨last', -, rfl⟩ := hz.whole (e ▸ all)
    exact ⟨rfl, rfl⟩

end Reservation

namespace StockRecord

/-- The record with so many units of a hold given back; of what is not about
that hold nothing changes. -/
structure GivesBack (r s : StockRecord) (k : ReservationId) (q : Int) : Prop where
  onHand : s.onHand = r.onHand
  reserved : s.reserved = r.reserved - q
  available : s.available = r.available + q
  others : ∀ j, j ≠ k → s.reservation? j = r.reservation? j
  rest : s = { r with
    reserved := s.reserved
    available := s.available
    reservations := s.reservations
    updatedAt := s.updatedAt }

/-- The portions of a hold are all accepted, and they give back their sum. -/
structure Portioned (r : StockRecord) (k : ReservationId) (x : Reservation)
    (ps : List Portion) : Prop where
  accepts : r.AcceptsAll (Portion.commands k ps)
  gives : r.GivesBack (r.run (Portion.commands k ps)) k (Portion.sum ps)
  leaves : ∃ y, (r.run (Portion.commands k ps)).reservation? k = some y ∧ x.Leaves y ps

variable {r s t : StockRecord} {k : ReservationId} {x : Reservation} {p : Portion}
  {ps qs : List Portion} {q q' : Int}

theorem GivesBack.refl (r : StockRecord) (k : ReservationId) : r.GivesBack r k 0 :=
  ⟨rfl, (Int.sub_zero _).symm, (Int.add_zero _).symm, fun _ _ => rfl, rfl⟩

theorem GivesBack.trans (h1 : r.GivesBack s k q) (h2 : s.GivesBack t k q') :
    r.GivesBack t k (q + q') where
  onHand := h2.onHand.trans h1.onHand
  reserved := by
    rw [h2.reserved, h1.reserved]
    omega
  available := by
    rw [h2.available, h1.available]
    omega
  others j hj := (h2.others j hj).trans (h1.others j hj)
  rest := by
    have s1 := h2.rest
    rw [h1.rest] at s1
    exact s1

/-! ## One portion -/

theorem WellFormed.execute_portion (h : r.WellFormed) (hx : r.reservation? k = some x)
    (hh : x.isHeld = true) (h0 : 0 < p.quantity) (hq : p.quantity ≤ x.quantity) :
    r.execute (p.command k) = .ok (r.apply (p.event k), [p.event k]) :=
  execute_eq_ok_iff.2 ⟨h.sound.decideRelease_eq hx hh h0 hq p.reason p.moment, rfl⟩

theorem WellFormed.givesBack_portion (h : r.WellFormed) (hx : r.reservation? k = some x)
    (hh : x.isHeld = true) (h0 : 0 < p.quantity) (hq : p.quantity ≤ x.quantity) :
    r.GivesBack (r.apply (p.event k)) k p.quantity := by
  have next : (r.apply (p.event k)).WellFormed := h.execute (h.execute_portion hx hh h0 hq)
  have s1 : (r.apply (p.event k)).onHand = r.onHand := rfl
  have s2 : (r.apply (p.event k)).reserved = r.reserved - p.quantity := rfl
  have s3 := h.available_eq
  have s4 := next.available_eq
  refine ⟨s1, s2, by omega,
    fun j hj => reservation?_apply_of_ne fun e => hj (Option.some.inj e).symm, ?_⟩
  -- the value is calculated again, from the same units
  have value : (r.apply (p.event k)).totalValue = r.totalValue := h.valued.symm
  rw [← value]
  rfl

/-! ## Refusals -/

theorem execute_release_excessive (hc : r.isCreated = true) (hx : r.reservation? k = some x)
    (hh : x.isHeld = true) (h0 : 0 < q) (hq : x.quantity < q) (reason : Option String)
    (now : Timestamp) :
    r.execute ⟨.release k q reason, now⟩ = .error (.excessiveRelease q x.quantity) := by
  refine execute_eq_error_iff.2 ?_
  show r.decideRelease k q reason now = _
  unfold decideRelease ensurePositive ensureCreated
  rw [ensure_bind_of h0, ensure_bind_of hc, heldReservation_eq_ok_iff.2 ⟨hx, hh⟩]
  exact ensure_bind_of_not (Int.not_le.2 hq) _ _

theorem execute_release_closed (hc : r.isCreated = true) (hx : r.reservation? k = some x)
    (hh : x.isHeld = false) (h0 : 0 < q) (reason : Option String) (now : Timestamp) :
    r.execute ⟨.release k q reason, now⟩ =
      .error (.invalidReservationState k (.inState x.state)) := by
  refine execute_eq_error_iff.2 ?_
  show r.decideRelease k q reason now = _
  unfold decideRelease ensurePositive ensureCreated heldReservation
  rw [ensure_bind_of h0, ensure_bind_of hc]
  simp only [hx, hh]
  rfl

/-! ## All of them -/

theorem WellFormed.portioned (h : r.WellFormed) (hx : r.reservation? k = some x)
    (hh : x.isHeld = true) (hc : x.Covers ps) : r.Portioned k x ps := by
  induction ps using List.reverseRecOn with
  | nil => exact ⟨rfl, .refl r k, x, hx, Reservation.leaves_nil (h.sound.quantity_pos hx hh)⟩
  | append_singleton ps p ih =>
    obtain ⟨before, h0, bound⟩ := hc.init
    obtain ⟨all, gives, y, hy, left⟩ := ih before
    -- something is left for the last portion, so the ones before it have not closed the hold
    have hy' : y = { x with quantity := x.quantity - Portion.sum ps } := left.part (by omega)
    have held : y.isHeld = true := by
      rw [hy']
      exact hh
    have enough : p.quantity ≤ y.quantity := by
      rw [hy']
      show p.quantity ≤ x.quantity - Portion.sum ps
      omega
    have wf : (r.run (Portion.commands k ps)).WellFormed := h.run _
    have he := wf.execute_portion hy held h0 enough
    have last : r.run (Portion.commands k (ps ++ [p])) =
        (r.run (Portion.commands k ps)).apply (p.event k) := by
      rw [Portion.commands_append_singleton, run_append]
      exact (run_cons_of_ok he []).1
    refine ⟨?_, ?_, ?_⟩
    · rw [Portion.commands_append_singleton]
      exact all.append (acceptsAll_cons_iff.2 ⟨_, _, he, rfl⟩)
    · rw [last, Portion.sum_append_singleton]
      exact gives.trans (wf.givesBack_portion hy held h0 enough)
    · rw [last]
      exact ⟨_, reservation?_modify_self hy _, Reservation.leaves_append_singleton hy' p⟩

/-! ## Runs -/

/-- What can be done about a hold in portions. -/
structure Divides (r : StockRecord) (k : ReservationId) (x : Reservation) : Prop where
  portioned : ∀ ps, x.Covers ps → r.Portioned k x ps
  alike : ∀ ps qs, x.Covers ps → x.Covers qs → Portion.sum ps = Portion.sum qs →
    let s := r.run (Portion.commands k ps)
    let t := r.run (Portion.commands k qs)
    s.SameCounters t ∧ ∃ y z, s.reservation? k = some y ∧ t.reservation? k = some z ∧
      y.state = z.state ∧ y.quantity = z.quantity
  excessive : ∀ ps q reason now, x.Covers ps → Portion.sum ps < x.quantity →
    x.quantity - Portion.sum ps < q →
    (r.run (Portion.commands k ps)).execute ⟨.release k q reason, now⟩ =
      .error (.excessiveRelease q (x.quantity - Portion.sum ps))
  closed : ∀ ps q reason now, x.Covers ps → Portion.sum ps = x.quantity → 0 < q →
    (r.run (Portion.commands k ps)).execute ⟨.release k q reason, now⟩ =
      .error (.invalidReservationState k (.inState .released))

theorem WellFormed.divides (h : r.WellFormed) (hx : r.reservation? k = some x)
    (hh : x.isHeld = true) : r.Divides k x where
  portioned ps hc := h.portioned hx hh hc
  alike ps qs hp hq e := by
    obtain ⟨-, s1, y, hy, left⟩ := h.portioned hx hh hp
    obtain ⟨-, s2, z, hz, left'⟩ := h.portioned hx hh hq
    refine ⟨(h.run _).sameCounters (h.run _) (s2.onHand.trans s1.onHand.symm) ?_, y, z, hy, hz,
      left.standing_eq left' hp e⟩
    rw [s1.reserved, s2.reserved, e]
  excessive ps q reason now hp less hq := by
    obtain ⟨-, -, y, hy, left⟩ := h.portioned hx hh hp
    obtain rfl := left.part less
    have created := (h.run (Portion.commands k ps)).sound.isCreated_of_isHeld hy hh
    exact execute_release_excessive created hy hh (by omega) hq reason now
  closed ps q reason now hp all h0 := by
    obtain ⟨-, s1, y, hy, left⟩ := h.portioned hx hh hp
    obtain ⟨last, -, rfl⟩ := left.whole all
    have created : (r.run (Portion.commands k ps)).isCreated = true := by
      rw [s1.rest]
      exact h.sound.isCreated_of_isHeld hx hh
    exact execute_release_closed created hy rfl h0 reason now

/-- What can be done in portions about the holds of a record, and about one that is booked on it
when none has expired. -/
structure Divisible (r : StockRecord) : Prop where
  divides : ∀ k x, r.reservation? k = some x → x.isHeld = true → r.Divides k x
  undoes : ∀ (b : Booking) next es ps, r.execute b.command = .ok (next, es) →
    (∀ j y, r.reservation? j = some y → y.isStaleAt b.moment = false) → (∀ p ∈ ps, 0 < p.quantity) →
    Portion.sum ps = b.quantity →
      next.AcceptsAll (Portion.commands b.id ps) ∧
        r.SameCounters (next.run (Portion.commands b.id ps))

theorem WellFormed.divisible (h : r.WellFormed) : r.Divisible where
  divides k x hx hh := h.divides hx hh
  undoes b next es ps he none hp hs := by
    have booked := h.books_execute he
    have hx := booked.reservation? b.id
    rw [if_pos rfl] at hx
    obtain ⟨all, gives, -⟩ := (h.execute he).portioned hx rfl ⟨hp, Int.le_of_eq hs⟩
    have live := h.sound.covered.reserved_eq b.moment
    rw [reclaimable_eq_zero none, Int.add_zero] at live
    refine ⟨all, h.sameCounters ((h.execute he).run _) (gives.onHand.trans booked.onHand) ?_⟩
    rw [gives.reserved, booked.reserved, hs, live]
    omega

/-- However a record is run, in how many portions and in which order a hold is given back makes no
difference to what is left, and more than what is left cannot be given back. -/
theorem divisible_run (id : RecordId) (sku : SkuCode) (cs : List Command) :
    ((empty id sku).run cs).Divisible :=
  ((wellFormed_empty id sku).run cs).divisible

def opening : Timestamp := (Timestamp.make? 0 25200 0).get (by decide)

/-- Five units, three of them held. -/
def oneHold : List Command :=
  [⟨.create ⟨⟨.ofNat 1⟩, 5, .standard, none, none, none⟩, opening⟩,
    ⟨.reserve ⟨"first"⟩ 3 none none, opening⟩]

/-- Once a hold is given back whole there is nothing left that a release could exceed: it is
refused for the state. -/
theorem not_excessiveRelease_oneHold :
    ¬∀ k x ps q reason now,
      ((empty ⟨.ofNat 1⟩ ⟨"BOLT"⟩).run oneHold).reservation? k = some x → x.isHeld = true →
      x.Covers ps → x.quantity - Portion.sum ps < q →
        (((empty ⟨.ofNat 1⟩ ⟨"BOLT"⟩).run oneHold).run (Portion.commands k ps)).execute
          ⟨.release k q reason, now⟩ =
          .error (.excessiveRelease q (x.quantity - Portion.sum ps)) := by
  intro excessive
  let ps : List Portion := [⟨1, none, opening⟩, ⟨2, none, opening⟩]
  have hw : ((empty ⟨.ofNat 1⟩ ⟨"BOLT"⟩).run oneHold).WellFormed :=
    (wellFormed_empty _ _).run oneHold
  have hx : ((empty ⟨.ofNat 1⟩ ⟨"BOLT"⟩).run oneHold).reservation? ⟨"first"⟩ =
      some (.place ⟨"first"⟩ 3 none opening none) := by decide +kernel
  have covers : (Reservation.place ⟨"first"⟩ 3 none opening none).Covers ps :=
    ⟨by decide, by decide⟩
  have s1 := excessive _ _ ps 1 none opening hx rfl covers (by decide)
  have s2 := (hw.divides hx rfl).closed ps 1 none opening covers (by decide) (by decide)
  rw [s2] at s1
  cases s1

end StockRecord

end Stockroom
