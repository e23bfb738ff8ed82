import Stockroom.Proofs.Movement.History

/-! Settling different reservations. Two commands that each give back or consume what is held under
a key of its own are answered alike in either order, although they draw on the same counters: of the
record as a whole a release is only checked against the reserved units, and no hold is of more than
these. What they do to the record commutes too, but for the time of the last update. -/
namespace Stockroom
set_option autoImplicit false

/-- What gives back or consumes the units held under a key. -/
inductive Action.Settles (k : ReservationId) : Action → Prop where
  | release (q : Int) (reason : Option String) : Settles k (.release k q reason)
  | consume (q : Int) : Settles k (.consume k q)

namespace StockRecord

/-- Units taken off the stock and off the reserved ones, with what becomes of the
reservation under a key. -/
def settled (r : StockRecord) (k : ReservationId) (out back : Int) (f : Reservation → Reservation)
    (t : Timestamp) : StockRecord :=
  { r with
    onHand := r.onHand - out
    reserved := r.reserved - back
    reservations := r.reservations.modify k f
    updatedAt := some t }.derive

/-- Equality in every field but the time of the last update. -/
def SameButUpdate (r s : StockRecord) : Prop := s = { r with updatedAt := s.updatedAt }

/-- What the answer to a settlement depends on. -/
structure SameFor (r s : StockRecord) (k : ReservationId) : Prop where
  isCreated : s.isCreated = r.isCreated
  sku : s.sku = r.sku
  reservation? : s.reservation? k = r.reservation? k

variable {r s : StockRecord} {a b k : ReservationId} {c d : Command} {es : List Event}

theorem SameButUpdate.refl (r : StockRecord) : r.SameButUpdate r := rfl

/-! ## Answers -/

theorem Sound.decideRelease_eq_unguarded (h : r.Sound) (k : ReservationId) (q : Int)
    (reason : Option String) (now : Timestamp) :
    r.decideRelease k q reason now = (do
      ensurePositive q
      r.ensureCreated
      let x ← r.heldReservation k
      ensure (q ≤ x.quantity) (.excessiveRelease q x.quantity)
      return [⟨.released k q reason, now⟩]) := by
  unfold decideRelease
  refine bind_congr fun _ => bind_congr fun _ => ?_
  cases hd : r.heldReservation k with
  | error e => rfl
  | ok x =>
    obtain ⟨hx, hh⟩ := heldReservation_eq_ok_iff.1 hd
    show (ensure _ _ >>= _) = (ensure _ _ >>= _)
    by_cases hq : q ≤ x.quantity
    · -- the check against all that is reserved adds nothing to the one against the hold
      have guard : q ≤ r.reserved := Int.le_trans hq (h.quantity_le_reserved hx hh)
      rw [ensure_bind_of hq, ensure_bind_of guard, ensure_bind_of hq]
    · rw [ensure_bind_of_not hq, ensure_bind_of_not hq]

theorem Sound.eventsFor_congr (hr : r.Sound) (hs : s.Sound) (same : r.SameFor s k)
    (hc : c.action.Settles k) : s.eventsFor c = r.eventsFor c := by
  obtain ⟨action, now⟩ := c
  cases hc with
  | release q reason =>
    show s.decideRelease k q reason now = r.decideRelease k q reason now
    rw [hs.decideRelease_eq_unguarded, hr.decideRelease_eq_unguarded]
    unfold ensureCreated heldReservation
    rw [same.isCreated, same.sku, same.reservation?]
  | consume q =>
    show s.decideConsume k q now = r.decideConsume k q now
    unfold decideConsume ensureCreated heldReservation
    rw [same.isCreated, same.sku, same.reservation?]

theorem map_snd_execute (r : StockRecord) (c : Command) :
    (r.execute c).map Prod.snd = r.eventsFor c := by
  unfold execute
  cases r.eventsFor c <;> rfl

/-! ## Effects -/

theorem settled_sameFor (ne : k ≠ a) (r : StockRecord) (out back : Int)
    (f : Reservation → Reservation) (t : Timestamp) : r.SameFor (r.settled a out back f t) k :=
  ⟨rfl, rfl, (reservation?_modify r.reservations a k f).trans (if_neg ne)⟩

theorem settled_comm (ne : a ≠ b) (r : StockRecord) (out back out' back' : Int)
    (f g : Reservation → Reservation) (t u : Timestamp) :
    ((r.settled a out back f t).settled b out' back' g u).SameButUpdate
      ((r.settled b out' back' g u).settled a out back f t) := by
  have keys : TextKey.text a ≠ TextKey.text b := fun e => ne (TextKey.text_injective a b e)
  -- the derived fields are made last, from the same units in either order
  have units : r.onHand - out' - out = r.onHand - out - out' := by omega
  have holds : r.reserved - back' - back = r.reserved - back - back' := by omega
  unfold SameButUpdate settled derive
  simp only [units, holds, KeyMap.modify_comm keys]

/-- The events of a settlement do one thing to whatever record they are applied
to, or there are none. -/
def Acts (es : List Event) (k : ReservationId) : Prop :=
  es = [] ∨ ∃ out back f t, ∀ r : StockRecord, r.applyAll es = r.settled k out back f t

theorem acts_of_eventsFor (hc : c.action.Settles k) (hd : r.eventsFor c = .ok es) : Acts es k := by
  obtain ⟨action, now⟩ := c
  cases hc with
  | release q reason =>
    obtain ⟨-, -, x, -, -, -, -, rfl⟩ := decideRelease_eq_ok_iff.1 hd
    refine .inr ⟨0, q, fun x => x.giveBack q reason now, now, fun r => ?_⟩
    unfold settled
    rw [Int.sub_zero]
    rfl
  | consume q =>
    obtain ⟨-, -, x, -, -, -, rfl⟩ := decideConsume_eq_ok_iff.1 hd
    exact .inr ⟨q, x.quantity, fun x => x.consume q now, now, fun r => rfl⟩

theorem Acts.sameFor (h : Acts es a) (ne : k ≠ a) (r : StockRecord) :
    r.SameFor (r.applyAll es) k := by
  obtain rfl | ⟨out, back, f, t, act⟩ := h
  · exact ⟨rfl, rfl, rfl⟩
  · rw [act]
    exact settled_sameFor ne r out back f t

theorem Acts.comm {fs : List Event} (ne : a ≠ b) (h1 : Acts es a) (h2 : Acts fs b)
    (r : StockRecord) :
    ((r.applyAll es).applyAll fs).SameButUpdate ((r.applyAll fs).applyAll es) := by
  obtain rfl | ⟨out, back, f, t, act⟩ := h1
  · exact .refl _
  · obtain rfl | ⟨out', back', g, u, act'⟩ := h2
    · exact .refl _
    · rw [act, act', act', act]
      exact settled_comm ne r out back out' back' f g t u

/-! ## Both orders -/

/-- The events of a command, none if it is refused. -/
def eventsOf (r : StockRecord) (c : Command) : List Event := (r.eventsFor c).toOption.getD []

theorem run_singleton (r : StockRecord) (c : Command) : r.run [c] = r.applyAll (r.eventsOf c) := by
  unfold run execute eventsOf
  cases r.eventsFor c <;> rfl

theorem acts_eventsOf (hc : c.action.Settles k) (r : StockRecord) : Acts (r.eventsOf c) k := by
  unfold eventsOf
  cases hd : r.eventsFor c with
  | error e => exact .inl rfl
  | ok es => exact acts_of_eventsFor hc hd

theorem WellFormed.eventsFor_run_singleton (h : r.WellFormed) (ne : a ≠ b) (hc : c.action.Settles a)
    (hd : d.action.Settles b) : (r.run [c]).eventsFor d = r.eventsFor d := by
  refine h.sound.eventsFor_congr (h.run [c]).sound ?_ hd
  rw [run_singleton]
  exact (acts_eventsOf hc r).sameFor ne.symm r

/-- Two commands in either order: each is accepted with the same events or refused for the same
reason, and they lead to the same record. -/
structure Commute (r : StockRecord) (c d : Command) : Prop where
  answer_second : ((r.run [c]).execute d).map Prod.snd = (r.execute d).map Prod.snd
  answer_first : ((r.run [d]).execute c).map Prod.snd = (r.execute c).map Prod.snd
  record : (r.run [c, d]).SameButUpdate (r.run [d, c])

theorem WellFormed.commute (h : r.WellFormed) (ne : a ≠ b) (hc : c.action.Settles a)
    (hd : d.action.Settles b) : r.Commute c d := by
  have s1 := h.eventsFor_run_singleton ne hc hd
  have s2 := h.eventsFor_run_singleton ne.symm hd hc
  refine ⟨?_, ?_, ?_⟩
  · rw [map_snd_execute, map_snd_execute, s1]
  · rw [map_snd_execute, map_snd_execute, s2]
  · have e1 : (r.run [c]).eventsOf d = r.eventsOf d := by rw [eventsOf, s1, eventsOf]
    have e2 : (r.run [d]).eventsOf c = r.eventsOf c := by rw [eventsOf, s2, eventsOf]
    show (r.run ([c] ++ [d])).SameButUpdate (r.run ([d] ++ [c]))
    rw [run_append, run_append, run_singleton (r.run [c]),
      run_singleton (r.run [d]), e1, e2, run_singleton, run_singleton]
    exact (acts_eventsOf hc r).comm ne (acts_eventsOf hd r) r

/-- However a record is run, settlements of different reservations of it commute. -/
theorem commute_run {a b : ReservationId} {c d : Command} (ne : a ≠ b) (hc : c.action.Settles a)
    (hd : d.action.Settles b) (id : RecordId) (sku : SkuCode) (cs : List Command) :
    ((empty id sku).run cs).Commute c d :=
  ((wellFormed_empty id sku).run cs).commute ne hc hd

def clearing : Timestamp := (Timestamp.make? 0 61200 0).get (by decide)

/-- Nine units, of which three are held under one key and four under another. -/
def twoHolds : List Command :=
  [⟨.create ⟨⟨.ofNat 1⟩, 9, .standard, none, none, none⟩, clearing⟩,
    ⟨.reserve ⟨"first"⟩ 3 none none, clearing⟩, ⟨.reserve ⟨"second"⟩ 4 none none, clearing⟩]

/-- Both holds are open and both are settled, one by a release and one by a
consumption that is short of it. -/
theorem commute_run_twoHolds :
    let r := (empty ⟨.ofNat 1⟩ ⟨"BOLT"⟩).run twoHolds
    let c : Command := ⟨.release ⟨"first"⟩ 3 none, clearing⟩
    let d : Command := ⟨.consume ⟨"second"⟩ 1, clearing⟩
    (r.reserved = 7 ∧ (r.run [c, d]).reserved = 0 ∧ (r.run [c, d]).onHand = 8) ∧ r.Commute c d := by
  intro r c d
  exact ⟨by decide +kernel,
    commute_run (show (⟨"first"⟩ : ReservationId) ≠ ⟨"second"⟩ by decide)
      (.release 3 none) (.consume 1) _ _ twoHolds⟩

end StockRecord

end Stockroom
