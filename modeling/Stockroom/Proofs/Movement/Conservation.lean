import Stockroom.Proofs.Movement.History

/-! Every unit is accounted for. Units come onto the stock with its creation and its corrections and
leave it in consumed reservations; all other commands only move them between the available and the
reserved ones. The supply of a record, on hand and consumed together, is what has been delivered,
event by event and so command by command. -/
namespace Stockroom
set_option autoImplicit false

/-- The units that a command brings onto the stock from outside. -/
def Action.delivered : Action → Int
  | .create details => details.onHand
  | .adjust delta _ _ => delta
  | _ => 0

def Change.delivered : Change → Int
  | .created _ _ details => details.onHand
  | .adjusted delta _ _ => delta
  | _ => 0

/-- What a command adds to the units on hand, and to the reserved ones among them. -/
structure Flow where
  onHand : Int
  reserved : Int

namespace StockRecord

def consumedTotal (r : StockRecord) : Int :=
  total (r.reservations.values.map Reservation.consumedQuantity)

/-- The units on hand and those that have been consumed. -/
def supply (r : StockRecord) : Int := r.onHand + r.consumedTotal

/-- The units that a reservation holds, none if there is no such reservation. -/
def heldBy (r : StockRecord) (id : ReservationId) : Int :=
  ((r.reservation? id).map Reservation.heldQuantity).getD 0

/-- A reservation takes up what it asks for and gives back what has expired; a consumption takes
units off the stock and gives back whatever else was held. -/
def flow (r : StockRecord) (c : Command) : Flow :=
  match c.action with
  | .create details => ⟨details.onHand, 0⟩
  | .reserve _ q _ _ => ⟨0, q - r.reclaimable c.occurredAt⟩
  | .release _ q _ => ⟨0, -q⟩
  | .consume id q => ⟨-q, -r.heldBy id⟩
  | .adjust delta _ _ => ⟨delta, 0⟩
  | .expire => ⟨0, -r.reclaimable c.occurredAt⟩
  | .deactivate _ => ⟨0, 0⟩

variable {r next : StockRecord} {c : Command} {es : List Event}

/-! ## The supply -/

/-- A change of one reservation changes the consumed units by as much as its own. -/
theorem consumedTotal_modify {id : ReservationId} {x : Reservation} (h : r.reservation? id = some x)
    (f : Reservation → Reservation) :
    total ((r.reservations.modify id f).values.map Reservation.consumedQuantity) =
      r.consumedTotal - x.consumedQuantity + (f x).consumedQuantity :=
  KeyMap.total_modify Reservation.consumedQuantity f h

theorem consumedQuantity_giveBack (x : Reservation) (q : Int) (reason : Option String)
    (t : Timestamp) :
    (x.giveBack q reason t).consumedQuantity = x.consumedQuantity := by
  by_cases h : q = x.quantity
  · rw [Reservation.giveBack_of_eq h]
  · rw [Reservation.giveBack_of_ne h]

theorem Sound.supply_apply {e : Event} (h : r.Sound) (hf : e.change.Fits r) :
    (r.apply e).supply = r.supply + e.change.delivered := by
  obtain ⟨c, t⟩ := e
  cases c with
  | created id sku details =>
    have h0 : r.onHand = 0 := (h.uncreated hf.1).1
    show details.onHand + r.consumedTotal = r.onHand + r.consumedTotal + details.onHand
    omega
  | reserved id q notes expiresAt =>
    obtain ⟨-, -, -, hn⟩ := hf
    have s1 : (r.apply ⟨.reserved id q notes expiresAt, t⟩).consumedTotal = 0 + r.consumedTotal :=
      KeyMap.total_insert Reservation.consumedQuantity (Reservation.place id q notes t expiresAt) hn
    show r.onHand + (r.apply ⟨.reserved id q notes expiresAt, t⟩).consumedTotal =
        r.onHand + r.consumedTotal + 0
    omega
  | released id q reason =>
    obtain ⟨-, x, hx, -⟩ := hf
    have s1 : (r.apply ⟨.released id q reason, t⟩).consumedTotal =
        r.consumedTotal - x.consumedQuantity + (x.giveBack q reason t).consumedQuantity :=
      consumedTotal_modify hx _
    rw [consumedQuantity_giveBack] at s1
    show r.onHand + (r.apply ⟨.released id q reason, t⟩).consumedTotal =
        r.onHand + r.consumedTotal + 0
    omega
  | consumed id q held =>
    obtain ⟨-, x, hx, hh, -⟩ := hf
    have s1 : (r.apply ⟨.consumed id q held, t⟩).consumedTotal =
        r.consumedTotal - x.consumedQuantity + q :=
      consumedTotal_modify hx _
    have s2 : x.consumedQuantity = 0 :=
      ((h.entries id x hx).2.held ((Reservation.isHeld_iff x).1 hh)).2.2.1
    show r.onHand - q + (r.apply ⟨.consumed id q held, t⟩).consumedTotal =
        r.onHand + r.consumedTotal + 0
    omega
  | expired id q =>
    obtain ⟨-, x, hx, -⟩ := hf
    have s1 : (r.apply ⟨.expired id q, t⟩).consumedTotal =
        r.consumedTotal - x.consumedQuantity + x.consumedQuantity := consumedTotal_modify hx _
    show r.onHand + (r.apply ⟨.expired id q, t⟩).consumedTotal = r.onHand + r.consumedTotal + 0
    omega
  | adjusted delta reason reference =>
    show (r.adjust delta t).onHand + (r.adjust delta t).consumedTotal =
        r.onHand + r.consumedTotal + delta
    rw [adjust_eq]
    show r.onHand + delta + r.consumedTotal = _
    omega
  | deactivated reason => exact (Int.add_zero r.supply).symm

theorem WellFormed.supply_applyAll (h : r.WellFormed) (hf : r.FitsAll es) :
    (r.applyAll es).supply = r.supply + total (es.map fun e => e.change.delivered) := by
  induction es generalizing r with
  | nil => exact (Int.add_zero r.supply).symm
  | cons e es ih =>
    have s1 := ih (h.apply hf.1) hf.2
    rw [h.sound.supply_apply hf.1] at s1
    rw [applyAll_cons, List.map_cons, total_cons]
    omega

theorem delivered_expiryEvents (r : StockRecord) (now : Timestamp) :
    total ((r.expiryEvents now).map fun e => e.change.delivered) = 0 := by
  rw [expiryEvents_eq, List.map_map]
  induction r.staleHolds now with
  | nil => rfl
  | cons x xs ih =>
    rw [List.map_cons, total_cons, ih]
    rfl

/-- The events of a command deliver what the command does. -/
theorem delivered_eventsFor (hd : r.eventsFor c = .ok es) :
    total (es.map fun e => e.change.delivered) = c.action.delivered := by
  obtain ⟨a, now⟩ := c
  cases a with
  | create details =>
    obtain ⟨-, -, -, -, -, rfl⟩ := decideCreate_eq_ok_iff.1 hd
    exact Int.add_zero details.onHand
  | reserve id q notes expiresAt =>
    obtain ⟨-, -, -, -, -, -, rfl⟩ := decideReserve_eq_ok_iff.1 hd
    rw [List.map_append, total_append, delivered_expiryEvents]
    rfl
  | release id q reason =>
    obtain ⟨-, -, x, -, -, -, -, rfl⟩ := decideRelease_eq_ok_iff.1 hd
    rfl
  | consume id q =>
    obtain ⟨-, -, x, -, -, -, rfl⟩ := decideConsume_eq_ok_iff.1 hd
    rfl
  | adjust delta reason reference =>
    obtain ⟨-, -, -, -, -, rfl⟩ := decideAdjust_eq_ok_iff.1 hd
    exact Int.add_zero delta
  | expire =>
    obtain ⟨-, rfl⟩ := decideExpire_eq_ok_iff.1 hd
    exact delivered_expiryEvents r now
  | deactivate reason =>
    obtain ⟨-, rfl⟩ := decideDeactivate_eq_ok_iff.1 hd
    split <;> rfl

theorem WellFormed.supply_execute (h : r.WellFormed) (he : r.execute c = .ok (next, es)) :
    next.supply = r.supply + c.action.delivered := by
  obtain ⟨hd, rfl⟩ := execute_eq_ok_iff.1 he
  rw [h.supply_applyAll (h.fitsAll hd), delivered_eventsFor hd]

/-! ## The counters -/

/-- The counters of a record after a flow. -/
structure Moves (r next : StockRecord) (f : Flow) : Prop where
  onHand : next.onHand = r.onHand + f.onHand
  reserved : next.reserved = r.reserved + f.reserved
  available : next.available = r.available + f.onHand - f.reserved

theorem heldBy_of_isHeld {id : ReservationId} {x : Reservation} (h : r.reservation? id = some x)
    (hx : x.isHeld = true) : r.heldBy id = x.quantity := by
  rw [heldBy, h, Option.map_some, Option.getD_some, Reservation.heldQuantity_of_isHeld hx]

/-- The two counters follow the flow whatever the record may be, so long as a
creation starts from nothing. -/
theorem counters_execute (hu : r.isCreated = false → r.onHand = 0 ∧ r.reserved = 0)
    (he : r.execute c = .ok (next, es)) :
    next.onHand = r.onHand + (r.flow c).onHand ∧
      next.reserved = r.reserved + (r.flow c).reserved := by
  obtain ⟨hd, rfl⟩ := execute_eq_ok_iff.1 he
  obtain ⟨a, now⟩ := c
  cases a with
  | create details =>
    obtain ⟨hc, -, -, -, -, rfl⟩ := decideCreate_eq_ok_iff.1 hd
    obtain ⟨h1, h2⟩ := hu hc
    constructor
    · show details.onHand = r.onHand + details.onHand
      omega
    · show 0 = r.reserved + 0
      omega
  | reserve id q notes expiresAt =>
    obtain ⟨-, -, -, -, -, -, rfl⟩ := decideReserve_eq_ok_iff.1 hd
    have h1 := onHand_lapses r (r.staleHolds now) now
    have h2 := reserved_lapses r (r.staleHolds now) now
    rw [applyAll_append, expiryEvents_eq]
    constructor
    · show (r.applyAll ((r.staleHolds now).map (lapse now))).onHand = r.onHand + 0
      omega
    · show (r.applyAll ((r.staleHolds now).map (lapse now))).reserved + q =
          r.reserved + (q - r.reclaimable now)
      rw [reclaimable]
      omega
  | release id q reason =>
    obtain ⟨-, -, x, -, -, -, -, rfl⟩ := decideRelease_eq_ok_iff.1 hd
    exact ⟨(Int.add_zero r.onHand).symm, Int.sub_eq_add_neg⟩
  | consume id q =>
    obtain ⟨-, -, x, hx, hh, -, rfl⟩ := decideConsume_eq_ok_iff.1 hd
    have h1 := heldBy_of_isHeld hx hh
    constructor
    · show r.onHand - q = r.onHand + -q
      omega
    · show r.reserved - x.quantity = r.reserved + -r.heldBy id
      omega
  | adjust delta reason reference =>
    obtain ⟨-, -, -, -, -, rfl⟩ := decideAdjust_eq_ok_iff.1 hd
    have h1 : (r.adjust delta now).onHand = r.onHand + delta := by rw [adjust_eq]
    have h2 : (r.adjust delta now).reserved = r.reserved := by rw [adjust_eq]
    constructor
    · exact h1
    · show (r.adjust delta now).reserved = r.reserved + 0
      omega
  | expire =>
    obtain ⟨-, rfl⟩ := decideExpire_eq_ok_iff.1 hd
    have h1 := onHand_lapses r (r.staleHolds now) now
    have h2 := reserved_lapses r (r.staleHolds now) now
    rw [expiryEvents_eq]
    constructor
    · show (r.applyAll ((r.staleHolds now).map (lapse now))).onHand = r.onHand + 0
      omega
    · show (r.applyAll ((r.staleHolds now).map (lapse now))).reserved =
          r.reserved + -r.reclaimable now
      rw [reclaimable]
      omega
  | deactivate reason =>
    obtain ⟨-, rfl⟩ := decideDeactivate_eq_ok_iff.1 hd
    have h1 : ∀ b : Bool,
        (r.applyAll (if b then [⟨.deactivated reason, now⟩] else [])).onHand = r.onHand := by
      intro b
      cases b <;> rfl
    have h2 : ∀ b : Bool,
        (r.applyAll (if b then [⟨.deactivated reason, now⟩] else [])).reserved = r.reserved := by
      intro b
      cases b <;> rfl
    exact ⟨(h1 _).trans (Int.add_zero r.onHand).symm, (h2 _).trans (Int.add_zero r.reserved).symm⟩

theorem WellFormed.moves_execute (h : r.WellFormed) (he : r.execute c = .ok (next, es)) :
    Moves r next (r.flow c) := by
  have s1 := h.available_eq
  have s2 := (h.execute he).available_eq
  obtain ⟨s3, s4⟩ := counters_execute h.sound.uncreated he
  exact ⟨s3, s4, by omega⟩

/-! ## Runs -/

/-- Where the units of a record have come from and where they are, after the given
commands have been accepted. -/
structure Balances (accepted : List Command) (r : StockRecord) : Prop where
  delivered : (r.isCreated = false ∧ accepted = []) ∨ ∃ details moment later,
    accepted = ⟨.create details, moment⟩ :: later ∧ (∀ c ∈ later, ∀ d, c.action ≠ .create d) ∧
      r.onHand = details.onHand + total (later.map fun c => c.action.delivered) - r.consumedTotal
  split : r.available + r.heldTotal = r.onHand
  moves : ∀ c next es, r.execute c = .ok (next, es) → Moves r next (r.flow c)

/-- What the accepted commands have delivered, beginning with a creation. -/
def Delivered (accepted : List Command) (r : StockRecord) : Prop :=
  (r.isCreated = false ∧ accepted = [] ∧ r.supply = 0) ∨
    (r.isCreated = true ∧ ∃ details moment later,
      accepted = ⟨.create details, moment⟩ :: later ∧ (∀ c ∈ later, ∀ d, c.action ≠ .create d) ∧
      r.supply = details.onHand + total (later.map fun c => c.action.delivered))

theorem Delivered.execute {past : List Command} (hw : r.WellFormed)
    (he : r.execute c = .ok (next, es)) (h : Delivered past r) : Delivered (past ++ [c]) next := by
  have hc : next.isCreated = true := isCreated_execute he
  have hs := hw.supply_execute he
  have creation := isCreated_of_eventsFor (execute_eq_ok_iff.1 he).1
  refine Or.inr ⟨hc, ?_⟩
  obtain ⟨h0, rfl, h1⟩ | ⟨h0, details, moment, later, rfl, hl, h1⟩ := h
  · obtain ⟨details, hd⟩ := creation.1 h0
    refine ⟨details, c.occurredAt, [], ?_, by simp, ?_⟩
    · rw [← hd]
      rfl
    · rw [hs, h1, hd]
      exact Int.add_comm 0 details.onHand
  · have hn : ∀ d, c.action ≠ .create d := by
      intro d hd
      cases h0.symm.trans (creation.2 ⟨d, hd⟩)
    refine ⟨details, moment, later ++ [c], rfl, ?_, ?_⟩
    · intro b hb
      rcases List.mem_append.1 hb with hb | hb
      · exact hl b hb
      · cases List.mem_singleton.1 hb
        exact hn
    · rw [hs, h1, List.map_append, total_append]
      show _ = details.onHand + (_ + (c.action.delivered + 0))
      omega

/-- However a record is run, its units are what was delivered less what was consumed, each of them
is available or held, and no command loses or makes any. -/
theorem balances_run (id : RecordId) (sku : SkuCode) (cs : List Command) :
    Balances ((empty id sku).accepted cs) ((empty id sku).run cs) := by
  have hw : ((empty id sku).run cs).WellFormed := (wellFormed_empty id sku).run cs
  have start : Delivered [] (empty id sku) := Or.inl ⟨rfl, rfl, rfl⟩
  have hd : Delivered ([] ++ (empty id sku).accepted cs) ((empty id sku).run cs) :=
    (wellFormed_empty id sku).run_induction (motive := Delivered)
      (fun past r c next es hw he h => h.execute hw he) start cs
  refine ⟨?_, ?_, fun c next es he => hw.moves_execute he⟩
  · obtain ⟨h0, h1, -⟩ | ⟨-, details, moment, later, h1, hl, h2⟩ := hd
    · exact Or.inl ⟨h0, h1⟩
    · refine Or.inr ⟨details, moment, later, h1, hl, ?_⟩
      unfold supply at h2
      omega
  · have s1 := hw.available_eq
    have s2 := hw.sound.heldTotal_eq
    omega

end StockRecord

end Stockroom
