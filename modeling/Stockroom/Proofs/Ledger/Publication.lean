import Stockroom.Proofs.Document.Command
import Stockroom.Proofs.Document.Envelope
import Stockroom.Proofs.Ledger.Notification

/-! What the ledger publishes can be read. Each message is about one event of a write,
and at any time, even while other events of the write are still owed, its receiver
gets that event out of it. -/
namespace Stockroom.Ledger
set_option autoImplicit false

variable {α : Type}

/-- A message is about one event of a write, which continues a record with
the events of a command. -/
def Reports (orders : Nat → Timestamp → Command → Prop) (f : Floor α) (v : Envelope)
    (event : Event) : Prop :=
  ∃ w ∈ f.writes, ∃ before events, w.Continues orders before events ∧ event ∈ events ∧
    v = .about v.eventId w.record event

theorem Announced.conveys {m : Nat → Mandate} {post : Nat → α → Progress → Prop} {f : Floor α}
    {ps : Nat → Progress} {es : List Entry} (ht : Tracked m post f ps es) (ha : Announced f ps es)
    (ho : OrdersInRange fun i => (m i).orders) {v : Envelope} (hv : v ∈ f.offered)
    (hn : fitsUInt64 v.sequenceNumber = true) :
    ∃ event, Reports (fun i => (m i).orders) f v event ∧ v.Conveys event := by
  obtain ⟨e, he, -, event, h1, id, rfl⟩ := ha.source hv rfl
  have linked := ht.linked (Envelope.about id e.record event).sku
  have writable : event.change.IsWritable :=
    linked.isWritable ho (fun r hr => by cases hr) e he event h1
  have written : e.write ∈ f.writes := by
    rw [ht.writes]
    exact List.mem_map.2 ⟨e, (mem_ofUnit.1 he).1, rfl⟩
  obtain ⟨before, hc⟩ := linked.continues he
  exact ⟨event, ⟨e.write, written, before, e.events, hc, h1, rfl⟩,
    Envelope.conveys_about hn writable id⟩

/-- Whatever calls are made, and however far they have come: every message that has been handed to
the bus conveys the event that it reports. -/
theorem conveys_reached {errands : List Errand} (hr : ∀ e ∈ errands, e.InRange)
    (turns : List Turn) :
    ∀ v ∈ ((Floor.start (errands.map Errand.program)).run turns).offered,
      fitsUInt64 v.sequenceNumber = true →
      ∃ event, Reports (fun i => (mandateOf (errands.map Errand.mandate) i).orders)
        ((Floor.start (errands.map Errand.program)).run turns) v event ∧ v.Conveys event := by
  intro v hv hn
  have start := tracked_map (fun _ _ p => p.stand.IsFree) Errand.obeys_program errands
  obtain ⟨ps, es, ht, ha⟩ := start.run announced_advance (announced_start _) turns
  exact ha.conveys ht (Errand.ordersInRange hr) hv hn

/-- Commands, events and envelopes are read back from their documents, commands and events as none
of another kind, and the messages of the ledger convey the events that they report. -/
theorem movements_roundTrip :
    (∀ c : Command, c.action.IsWritable → Command.ofJson? c.toJson = some c) ∧
    (∀ e : Event, e.change.IsWritable → Event.ofJson? e.toJson = some e) ∧
    (∀ v : Envelope, fitsUInt64 v.sequenceNumber = true → v.payload.IsValue →
      Envelope.ofJson? v.toJson = some v) ∧
    (∀ c d : Command, Command.ofJson? c.toJson = some d → d.action.ctorIdx = c.action.ctorIdx) ∧
    (∀ e d : Event, Event.ofJson? e.toJson = some d → d.change.ctorIdx = e.change.ctorIdx) ∧
    ∀ errands : List Errand, (∀ e ∈ errands, e.InRange) → ∀ turns,
      ∀ v ∈ ((Floor.start (errands.map Errand.program)).run turns).offered,
        fitsUInt64 v.sequenceNumber = true →
        ∃ event, Reports (fun i => (mandateOf (errands.map Errand.mandate) i).orders)
          ((Floor.start (errands.map Errand.program)).run turns) v event ∧ v.Conveys event :=
  ⟨fun _ => Command.ofJson?_toJson, fun _ => Event.ofJson?_toJson, fun _ => Envelope.ofJson?_toJson,
    fun _ _ => Command.ctorIdx_eq, fun _ _ => Event.ctorIdx_eq, fun _ => conveys_reached⟩

def mailing : Timestamp := (Timestamp.make? 0 72000 0).get (by decide)

/-- A creation with a cost of one and a half, and an event with an absent reason. -/
def priced : Command :=
  ⟨.create
    ⟨⟨.ofNat 1⟩, 4, .standard, some ⟨false, 150, 2, by decide, by decide⟩, some "", none⟩,
    mailing⟩

def returned : Event := ⟨.released ⟨"first"⟩ 2 none, mailing⟩

/-- An envelope around something else than an event. -/
def parcel : Envelope :=
  ⟨.ofNat 1, ⟨.ofNat 2⟩, ⟨"BOLT"⟩, "other", 18446744073709551615,
    .array [.null, .object [("a", .text ""), ("b", .null)]]⟩

/-- A floor on which one item has been created. -/
def freshFloor : Floor Unit :=
  (Floor.start ([⟨.standard, .perform (.create bolt)⟩].map Errand.program)).run crossedTurns

theorem movements_roundTrip_parcel :
    Command.ofJson? priced.toJson = some priced ∧ Event.ofJson? returned.toJson = some returned ∧
      Envelope.ofJson? parcel.toJson = some parcel ∧
      ∃ v ∈ freshFloor.offered, v.eventType = "inventory.item.created" ∧
        ∃ event, v.Conveys event := by
  obtain ⟨commands, events, envelopes, -, -, messages⟩ := movements_roundTrip
  have price : priced.action.IsWritable := by
    refine ⟨rfl, rfl, rfl, fun cost hc => ?_⟩
    cases hc
    decide
  have enclosed : parcel.payload.IsValue := by
    refine .array _ fun j hj => ?_
    simp only [List.mem_cons, List.not_mem_nil, or_false] at hj
    rcases hj with rfl | rfl
    · exact .null
    · refine .object _ ?_ (by decide)
      simp only [List.forall_mem_cons]
      exact ⟨.text "", .null, List.forall_mem_nil _⟩
  have range : ∀ e ∈ [(⟨.standard, .perform (.create bolt)⟩ : Errand)], e.InRange := by
    intro e he item hc
    cases List.mem_singleton.1 he
    cases hc
    exact ⟨by decide, by decide, by decide⟩
  have sent : freshFloor.offered.map (fun v => (v.eventType, v.sequenceNumber)) =
      [("inventory.item.created", 1)] := by
    decide +kernel
  obtain ⟨v, hv, ht⟩ : ∃ v ∈ freshFloor.offered,
      (v.eventType, v.sequenceNumber) = ("inventory.item.created", 1) :=
    List.mem_map.1 (sent ▸ List.mem_cons_self)
  obtain ⟨h1, h2⟩ := Prod.mk.inj ht
  have numbered : fitsUInt64 v.sequenceNumber = true := by
    rw [h2]
    rfl
  obtain ⟨event, -, conveyed⟩ := messages _ range crossedTurns v hv numbered
  exact ⟨commands priced price, events returned rfl, envelopes parcel (by decide) enclosed,
    v, hv, h1, event, conveyed⟩

end Stockroom.Ledger
