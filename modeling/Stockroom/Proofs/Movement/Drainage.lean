import Stockroom.Proofs.Movement.Story

/-! How a record comes to an end. Once deactivated it stays so: no reservation is entered any more
and what is reserved only dwindles. But deactivated or not, whatever is held can be got rid of. No
check stands in the way of a hold that is given back or consumed, the one against the units reserved
in all included, as no hold is of more than these. So the holds can be given back whole one after
the other in any order, until nothing is reserved. -/
namespace Stockroom
set_option autoImplicit false

/-- Whether a change enters a new reservation. -/
def Change.isPlacement : Change → Bool
  | .reserved .. => true
  | _ => false

namespace StockRecord

variable {r s t : StockRecord} {c : Command} {e : Event} {es : List Event}

/-! ## Deactivated records -/

/-- What may become of a deactivated record. -/
structure Dwindles (r s : StockRecord) : Prop where
  isActive : s.isActive = false
  reservations : ∀ k, r.reservation? k = none → s.reservation? k = none
  reserved : s.reserved ≤ r.reserved

theorem Dwindles.refl (h : r.isActive = false) : r.Dwindles r := ⟨h, fun _ hk => hk, Int.le_refl _⟩

theorem Dwindles.trans (h1 : r.Dwindles s) (h2 : s.Dwindles t) : r.Dwindles t where
  isActive := h2.isActive
  reservations k hk := h2.reservations k (h1.reservations k hk)
  reserved := Int.le_trans h2.reserved h1.reserved

/-- Of a reservation that is not there nothing can be told but its being placed. -/
theorem reservation?_apply_eq_none {k : ReservationId} (hf : e.change.Fits r)
    (hp : e.change.isPlacement = false) (hk : r.reservation? k = none) :
    (r.apply e).reservation? k = none := by
  refine (reservation?_apply_of_ne fun named => ?_).trans hk
  obtain ⟨d, now⟩ := e
  cases d with
  | reserved id q notes expiresAt => cases hp
  | released id q reason =>
    cases named
    obtain ⟨-, x, hx, -⟩ := hf
    cases hk.symm.trans hx
  | consumed id q held =>
    cases named
    obtain ⟨-, x, hx, -⟩ := hf
    cases hk.symm.trans hx
  | expired id q =>
    cases named
    obtain ⟨-, x, hx, -⟩ := hf
    cases hk.symm.trans hx
  | _ => cases named

/-- Only the placing of a reservation adds to the reserved units. -/
theorem Sound.reserved_apply_le (h : r.Sound) (hf : e.change.Fits r) (hc : r.isCreated = true)
    (hp : e.change.isPlacement = false) : (r.apply e).reserved ≤ r.reserved := by
  obtain ⟨d, now⟩ := e
  cases d with
  | created id sku details => cases hc.symm.trans hf.1
  | reserved id q notes expiresAt => cases hp
  | released id q reason =>
    obtain ⟨-, x, -, -, h0, -⟩ := hf
    show r.reserved - q ≤ r.reserved
    omega
  | consumed id q held =>
    obtain ⟨-, x, hx, hh, -, -, rfl⟩ := hf
    have h0 := h.quantity_pos hx hh
    show r.reserved - x.quantity ≤ r.reserved
    omega
  | expired id q =>
    obtain ⟨-, x, hx, hh, rfl⟩ := hf
    have h0 := h.quantity_pos hx hh
    show r.reserved - x.quantity ≤ r.reserved
    omega
  | adjusted delta reason reference =>
    show (r.adjust delta now).reserved ≤ r.reserved
    rw [adjust_eq]
  | deactivated reason => exact Int.le_refl _

/-- Only a creation makes a record active. -/
theorem isActive_apply_eq_false (hf : e.change.Fits r) (hc : r.isCreated = true)
    (ha : r.isActive = false) : (r.apply e).isActive = false := by
  obtain ⟨d, now⟩ := e
  cases d with
  | created id sku details => cases hc.symm.trans hf.1
  | adjusted delta reason reference =>
    show (r.adjust delta now).isActive = false
    rw [adjust_eq]
    exact ha
  | deactivated reason => rfl
  | _ => exact ha

theorem WellFormed.dwindles_applyAll (h : r.WellFormed) (hc : r.isCreated = true)
    (ha : r.isActive = false) (hf : r.FitsAll es) (hp : ∀ e ∈ es, e.change.isPlacement = false) :
    r.Dwindles (r.applyAll es) := by
  induction es generalizing r with
  | nil => exact .refl ha
  | cons e es ih =>
    have h0 := hp e List.mem_cons_self
    have h1 : (r.apply e).isActive = false := isActive_apply_eq_false hf.1 hc ha
    have s1 : r.Dwindles (r.apply e) :=
      ⟨h1, fun _ => reservation?_apply_eq_none hf.1 h0, h.sound.reserved_apply_le hf.1 hc h0⟩
    exact s1.trans (ih (h.apply hf.1) (isCreated_apply hc e) h1 hf.2 fun d hd =>
      hp d (List.mem_cons_of_mem e hd))

/-- A deactivated record refuses reservations, and no other command places any. -/
theorem isPlacement_of_mem_eventsFor (ha : r.isActive = false) (hd : r.eventsFor c = .ok es) :
    ∀ e ∈ es, e.change.isPlacement = false := by
  have single {d : Event} (hn : d.change.isPlacement = false) : ∀ e ∈ [d],
      e.change.isPlacement = false := by
    intro e he
    cases List.mem_singleton.1 he
    exact hn
  obtain ⟨a, now⟩ := c
  cases a with
  | create details =>
    obtain ⟨-, -, -, -, -, rfl⟩ := decideCreate_eq_ok_iff.1 hd
    exact single rfl
  | reserve id q notes expiresAt =>
    obtain ⟨-, -, h1, -⟩ := decideReserve_eq_ok_iff.1 hd
    cases ha.symm.trans h1
  | release id q reason =>
    obtain ⟨-, -, x, -, -, -, -, rfl⟩ := decideRelease_eq_ok_iff.1 hd
    exact single rfl
  | consume id q =>
    obtain ⟨-, -, x, -, -, -, rfl⟩ := decideConsume_eq_ok_iff.1 hd
    exact single rfl
  | adjust delta reason reference =>
    obtain ⟨-, -, -, -, -, rfl⟩ := decideAdjust_eq_ok_iff.1 hd
    exact single rfl
  | expire =>
    obtain ⟨-, rfl⟩ := decideExpire_eq_ok_iff.1 hd
    rw [expiryEvents_eq]
    intro e he
    obtain ⟨x, -, rfl⟩ := List.mem_map.1 he
    rfl
  | deactivate reason =>
    obtain ⟨-, rfl⟩ := decideDeactivate_eq_ok_iff.1 hd
    intro e he
    rw [if_neg (by simp [ha])] at he
    cases he

theorem WellFormed.dwindles_execute (h : r.WellFormed) (hc : r.isCreated = true)
    (ha : r.isActive = false) (he : r.execute c = .ok (s, es)) : r.Dwindles s := by
  obtain ⟨hd, rfl⟩ := execute_eq_ok_iff.1 he
  exact h.dwindles_applyAll hc ha (h.fitsAll hd) (isPlacement_of_mem_eventsFor ha hd)

theorem WellFormed.dwindles_run (h : r.WellFormed) (hc : r.isCreated = true)
    (ha : r.isActive = false) (cs : List Command) : r.Dwindles (r.run cs) := by
  induction cs generalizing r with
  | nil => exact .refl ha
  | cons c cs ih =>
    rw [StockRecord.run]
    cases he : r.execute c with
    | error e => exact ih h hc ha
    | ok p =>
      obtain ⟨next, es⟩ := p
      have s1 := h.dwindles_execute hc ha he
      exact s1.trans (ih (h.execute he) (isCreated_execute he) s1.isActive)

/-- A record begins active, and the first command that it accepts creates it. -/
theorem isCreated_run_of_inactive (h : r.isActive = false → r.isCreated = true)
    (cs : List Command) :
    (r.run cs).isActive = false → (r.run cs).isCreated = true := by
  induction cs generalizing r with
  | nil => exact h
  | cons c cs ih =>
    rw [StockRecord.run]
    cases he : r.execute c with
    | error e => exact ih h
    | ok p => exact ih fun _ => isCreated_execute he

/-! ## One hold -/

def Accepts (r : StockRecord) (c : Command) : Prop := ∃ next es, r.execute c = .ok (next, es)

theorem accepts_of_eventsFor (hd : r.eventsFor c = .ok es) : r.Accepts c :=
  ⟨_, _, execute_eq_ok_iff.2 ⟨hd, rfl⟩⟩

theorem accepts_iff : r.Accepts c ↔ ∃ es, r.eventsFor c = .ok es :=
  ⟨fun ⟨_, es, he⟩ => ⟨es, (execute_eq_ok_iff.1 he).1⟩, fun ⟨_, hd⟩ => accepts_of_eventsFor hd⟩

variable {k : ReservationId} {x : Reservation} {q : Int}

/-- Nothing is held of a record that is not created. -/
theorem Sound.isCreated_of_isHeld (h : r.Sound) (hx : r.reservation? k = some x)
    (hh : x.isHeld = true) : r.isCreated = true := by
  have s1 := h.quantity_le_reserved hx hh
  have s2 := h.quantity_pos hx hh
  cases hc : r.isCreated with
  | true => rfl
  | false =>
    have s3 := (h.uncreated hc).2
    omega

theorem Sound.decideRelease_eq (h : r.Sound) (hx : r.reservation? k = some x) (hh : x.isHeld = true)
    (h0 : 0 < q) (hq : q ≤ x.quantity) (reason : Option String) (now : Timestamp) :
    r.decideRelease k q reason now = .ok [⟨.released k q reason, now⟩] :=
  decideRelease_eq_ok_iff.2 ⟨h0, h.isCreated_of_isHeld hx hh, x, hx, hh, hq,
    Int.le_trans hq (h.quantity_le_reserved hx hh), rfl⟩

theorem Sound.decideConsume_eq (h : r.Sound) (hx : r.reservation? k = some x) (hh : x.isHeld = true)
    (h0 : 0 < q) (hq : q ≤ x.quantity) (now : Timestamp) :
    r.decideConsume k q now = .ok [⟨.consumed k q x.quantity, now⟩] :=
  decideConsume_eq_ok_iff.2 ⟨h0, h.isCreated_of_isHeld hx hh, x, hx, hh, hq, rfl⟩

/-! ## All holds -/

def holds (r : StockRecord) : List Reservation := r.reservations.values.filter Reservation.isHeld

/-- A hold to be given back, with the reason to be stated and the moment it happens. -/
structure Return where
  hold : Reservation
  reason : Option String
  moment : Timestamp

def Return.event (b : Return) : Event := ⟨.released b.hold.id b.hold.quantity b.reason, b.moment⟩

def Return.command (b : Return) : Command := ⟨.release b.hold.id b.hold.quantity b.reason, b.moment⟩

/-- The held reservations of a record, each of them once. -/
structure AllHeld (r : StockRecord) (xs : List Reservation) : Prop extends r.Lapsing xs where
  complete : ∀ k x, r.reservation? k = some x → x.isHeld = true → x ∈ xs

variable {b : Return} {xs : List Reservation}

theorem Sound.allHeld_of_perm (h : r.Sound) (hp : xs.Perm r.holds) : r.AllHeld xs where
  toLapsing := (h.orderly.keyed.lapsing_filter fun _ hx => hx).perm hp
  complete k _ hx hh := hp.mem_iff.2 (List.mem_filter.2 ⟨KeyMap.mem_values_iff.2 ⟨k, hx⟩, hh⟩)

theorem isHeld_giveBack_all (x : Reservation) (reason : Option String) (now : Timestamp) :
    (x.giveBack x.quantity reason now).isHeld = false := by
  rw [Reservation.giveBack_of_eq rfl]
  rfl

theorem reservation?_apply_return {k : ReservationId} (hk : k ≠ b.hold.id) :
    (r.apply b.event).reservation? k = r.reservation? k :=
  reservation?_apply_of_ne fun e => hk (Option.some.inj e).symm

/-- With one hold given back, the others are what is held. -/
theorem AllHeld.tail (hk : r.Keyed) (h : r.AllHeld (b.hold :: xs)) :
    (r.apply b.event).AllHeld xs where
  toLapsing := h.toLapsing.tail_of_apply fun _ => reservation?_apply_return
  complete k y hy hh := by
    obtain ⟨hx, -⟩ := h.held b.hold List.mem_cons_self
    by_cases e : k = b.hold.id
    · -- under its key there is now what is left of it, and that is not held
      have s1 : (r.apply b.event).reservation? b.hold.id =
          some (b.hold.giveBack b.hold.quantity b.reason b.moment) := reservation?_modify_self hx _
      rw [e, s1] at hy
      cases hy
      cases hh.symm.trans (isHeld_giveBack_all b.hold b.reason b.moment)
    · rw [reservation?_apply_return e] at hy
      refine (List.mem_cons.1 (h.complete k y hy hh)).resolve_left ?_
      rintro rfl
      exact e (hk k b.hold hy).symm

theorem AllHeld.execute_eq (hs : r.Sound) (h : r.AllHeld (b.hold :: xs)) :
    r.execute b.command = .ok (r.apply b.event, [b.event]) := by
  obtain ⟨hx, hh⟩ := h.held b.hold List.mem_cons_self
  have h0 := hs.quantity_pos hx hh
  exact execute_eq_ok_iff.2 ⟨hs.decideRelease_eq hx hh h0 (Int.le_refl _) b.reason b.moment, rfl⟩

/-- With nothing held nothing is reserved, and all that is on hand is available. -/
theorem AllHeld.nil (hw : r.WellFormed) (h : r.AllHeld []) :
    r.reserved = 0 ∧ r.available = r.onHand := by
  have none : r.reservations.values.filter Reservation.isHeld = [] := by
    refine List.filter_eq_nil_iff.2 fun x hx hh => ?_
    obtain ⟨k, hk⟩ := KeyMap.mem_values_iff.1 hx
    cases h.complete k x hk hh
  have s1 := Reservation.total_filter_isHeld r.reservations.values
  have s2 : total (r.reservations.values.map Reservation.heldQuantity) = r.reserved :=
    hw.sound.heldTotal_eq
  have s3 := hw.available_eq
  rw [none, s2] at s1
  have s4 : r.reserved = 0 := s1.symm
  exact ⟨s4, by omega⟩

/-- What is left of a record when all that was held has been given back. -/
structure Drained (s : StockRecord) : Prop where
  reserved : s.reserved = 0
  available : s.available = s.onHand
  holds : ∀ k x, s.reservation? k = some x → x.isHeld = false

theorem AllHeld.drained {bs : List Return} (hw : r.WellFormed)
    (h : r.AllHeld (bs.map Return.hold)) :
    r.accepted (bs.map Return.command) = bs.map Return.command ∧
      (r.run (bs.map Return.command)).Drained := by
  induction bs generalizing r with
  | nil =>
    obtain ⟨s1, s2⟩ := h.nil hw
    refine ⟨rfl, s1, s2, fun k x hx => ?_⟩
    cases hh : x.isHeld with
    | false => rfl
    | true => cases h.complete k x hx hh
  | cons b bs ih =>
    have he := h.execute_eq hw.sound
    obtain ⟨s1, s2, -⟩ := run_cons_of_ok he (bs.map Return.command)
    obtain ⟨s3, s4⟩ := ih (hw.execute he) (h.tail hw.sound.orderly.keyed)
    rw [List.map_cons, s1, s2, s3]
    exact ⟨rfl, s4⟩

/-! ## Runs -/

/-- What can be done about the holds of a record: each can be given back and consumed, up to all it
holds and at any moment, and all together can be given back whole in any order. -/
structure Releasable (r : StockRecord) : Prop where
  single : ∀ k x q, r.reservation? k = some x → x.isHeld = true → 1 ≤ q → q ≤ x.quantity →
    ∀ reason now, r.Accepts ⟨.release k q reason, now⟩ ∧ r.Accepts ⟨.consume k q, now⟩
  together : ∀ bs : List Return, (bs.map Return.hold).Perm r.holds →
    r.accepted (bs.map Return.command) = bs.map Return.command ∧
      (r.run (bs.map Return.command)).Drained

theorem WellFormed.releasable (h : r.WellFormed) : r.Releasable where
  single _ _ _ hx hh h0 hq reason now :=
    ⟨accepts_of_eventsFor (h.sound.decideRelease_eq hx hh h0 hq reason now),
      accepts_of_eventsFor (h.sound.decideConsume_eq hx hh h0 hq now)⟩
  together _ hp := (h.sound.allHeld_of_perm hp).drained h

/-- However a record is run, once it is deactivated it only dwindles, and at no time is
anything held for good. -/
theorem dwindles_run_and_releasable (id : RecordId) (sku : SkuCode) (past : List Command) :
    let r := (empty id sku).run past
    (r.isActive = false → ∀ later, r.Dwindles (r.run later)) ∧ r.Releasable := by
  intro r
  have hw : r.WellFormed := (wellFormed_empty id sku).run past
  have hc : r.isActive = false → r.isCreated = true :=
    isCreated_run_of_inactive (fun h => by cases h) past
  exact ⟨fun ha => hw.dwindles_run (hc ha) ha, hw.releasable⟩

def evening : Timestamp := (Timestamp.make? 0 68400 0).get (by decide)

def night : Timestamp := (Timestamp.make? 0 79200 0).get (by decide)

/-- A record deactivated with two holds on it, one of them past its expiry by the night. -/
def windingDown : List Command :=
  [⟨.create ⟨⟨.ofNat 1⟩, 9, .standard, none, none, none⟩, evening⟩,
    ⟨.reserve ⟨"first"⟩ 3 none none, evening⟩, ⟨.reserve ⟨"second"⟩ 4 none (some night), evening⟩,
    ⟨.deactivate none, evening⟩]

/-- The later hold first. -/
def backwards (r : StockRecord) : List Return :=
  r.holds.reverse.map fun x => ⟨x, some "closing down", night⟩

theorem dwindles_run_and_releasable_windingDown :
    let r := (empty ⟨.ofNat 1⟩ ⟨"BOLT"⟩).run windingDown
    r.isActive = false ∧ r.reserved = 7 ∧
      r.Dwindles (r.run [⟨.reserve ⟨"third"⟩ 1 none none, evening⟩,
        ⟨.consume ⟨"first"⟩ 2, night⟩]) ∧
      r.Accepts ⟨.release ⟨"second"⟩ 4 none, night⟩ ∧
      (r.run (r.backwards.map Return.command)).Drained := by
  intro r
  have inactive : r.isActive = false := by decide +kernel
  have held : r.reserved = 7 := by decide +kernel
  obtain ⟨x, hx, hh, hq⟩ : ∃ x, r.reservation? ⟨"second"⟩ = some x ∧
      x.isHeld = true ∧ 4 ≤ x.quantity :=
    ⟨_, rfl, by decide +kernel, by decide +kernel⟩
  have order : (r.backwards.map Return.hold).Perm r.holds := by
    have s1 : r.backwards.map Return.hold = r.holds.reverse := by
      simp [backwards, Function.comp_def]
    rw [s1]
    exact r.holds.reverse_perm
  obtain ⟨s1, s2⟩ := dwindles_run_and_releasable ⟨.ofNat 1⟩ ⟨"BOLT"⟩ windingDown
  exact ⟨inactive, held, s1 inactive _, (s2.single _ x 4 hx hh (by decide) hq none night).1,
    (s2.together r.backwards order).2⟩

end StockRecord

end Stockroom
