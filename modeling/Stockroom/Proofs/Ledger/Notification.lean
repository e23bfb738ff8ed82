import Stockroom.Ledger.Hall
import Stockroom.Ledger.Scene
import Stockroom.Proofs.Bus.Delivery
import Stockroom.Proofs.Ledger.Conduct
import Stockroom.Proofs.Ledger.Replay

/-! Listeners can rebuild what is stored. A subscription that is made before the first call has at
the end received all messages, so that by then its queue tells of every stored record. -/
namespace Stockroom.Ledger
set_option autoImplicit false

/-! ## Halls and floors -/

variable {α : Type}

/-- What a turn is on a floor: nothing, or one answered question. -/
theorem Floor.step_eq (f : Floor α) (turn : Turn) :
    (f.question? turn.thread = none ∧ f.step turn = f) ∨
      ∃ t q next, f.question? turn.thread = some q ∧ f.step turn = f.advance turn t q next := by
  unfold Floor.question? Floor.step
  cases ht : f.threads[turn.thread]? with
  | none => exact Or.inl ⟨rfl, rfl⟩
  | some t =>
    obtain ⟨rest, clock, minted⟩ := t
    cases rest with
    | done a => exact Or.inl ⟨rfl, rfl⟩
    | ask q next => exact Or.inr ⟨_, q, next, rfl, rfl⟩

namespace Hall

variable {h : Hall α} {i : Nat}

theorem holds_hear {queue : List Envelope} {bus : Broadcast Envelope} (hb : bus.Holds i queue)
    (q : Request) :
    (hear bus q).Holds i (queue ++ q.offers) := by
  cases q with
  | publish envelope =>
    obtain ⟨next, h1, h2⟩ := hb.publish envelope
    simp only [hear, h1]
    exact h2
  | _ =>
    show bus.Holds i (queue ++ [])
    rw [List.append_nil]
    exact hb

/-- A turn in a hall is a turn on its floor, and the subscription gets what is handed over in it. -/
theorem holds_step (hb : h.bus.Holds i h.floor.offered) (turn : Turn) :
    (h.step turn).bus.Holds i (h.step turn).floor.offered := by
  show ((h.floor.question? turn.thread).elim h.bus (hear h.bus)).Holds i
    (h.floor.step ⟨turn.thread, reply h.bus turn.chance⟩).offered
  obtain ⟨h1, h2⟩ | ⟨t, q, next, h1, h2⟩ := h.floor.step_eq ⟨turn.thread, reply h.bus turn.chance⟩
  · rw [h1, h2]
    exact hb
  · rw [h1, h2]
    exact holds_hear hb q

theorem run_eq (hb : h.bus.Holds i h.floor.offered) (turns : List Turn) :
    ∃ turns', (h.run turns).floor = h.floor.run turns' ∧
      (h.run turns).bus.Holds i (h.run turns).floor.offered := by
  induction turns generalizing h with
  | nil => exact ⟨[], rfl, hb⟩
  | cons turn turns ih =>
    obtain ⟨turns', h1, h2⟩ := ih (holds_step hb turn)
    exact ⟨⟨turn.thread, reply h.bus turn.chance⟩ :: turns', h1, h2⟩

end Hall

/-! ## Calls -/

def Floor.IsFinished (f : Floor α) : Prop := ∀ t ∈ f.threads, ∃ a, t.rest = .done a

instance (p : Program α) : Decidable (∃ a, p = .done a) :=
  match p with
  | .done a => isTrue ⟨a, rfl⟩
  | .ask q next => isFalse fun ⟨a, h⟩ => by cases h

instance (f : Floor α) : Decidable f.IsFinished :=
  inferInstanceAs (Decidable (∀ t ∈ f.threads, ∃ a, t.rest = .done a))

/-- The numbers that an item is created with are words of 64 bits. -/
def Errand.InRange (e : Errand) : Prop :=
  ∀ item, e.call = .perform (.create item) → (item.details e.config).InRange

theorem Errand.ordersInRange {errands : List Errand} (h : ∀ e ∈ errands, e.InRange) :
    OrdersInRange fun i => (mandateOf (errands.map Errand.mandate) i).orders := by
  intro i now c details ho hc
  rw [mandateOf, List.getElem?_map] at ho
  cases he : errands[i]? with
  | none =>
    rw [he] at ho
    exact ho.elim
  | some e =>
    rw [he] at ho
    change (e.call.mandate e.config).orders now c at ho
    have hi := h e (List.mem_of_getElem? he)
    obtain ⟨config, call⟩ := e
    cases call with
    | perform task =>
      have ho' : task.command config now = .ok c := ho
      obtain ⟨item, rfl⟩ := (Task.creates_iff ho').1 ⟨details, hc⟩
      cases ho'
      cases hc
      exact hi item rfl
    | expireAll =>
      cases (show c = _ from ho)
      cases hc
    | _ => exact ho.elim

theorem Tracked.isFree_of_isFinished {m : Nat → Mandate} {f : Floor α} {ps : Nat → Progress}
    {es : List Entry} (h : Tracked m (fun _ _ p => p.stand.IsFree) f ps es) (hf : f.IsFinished)
    (i : Nat) : (ps i).stand.IsFree := by
  cases ht : f.threads[i]? with
  | none =>
    rw [h.absent i ht]
    exact trivial
  | some t =>
    obtain ⟨a, ha⟩ := hf t (List.mem_of_getElem? ht)
    have s := h.obeys i t ht
    rw [ha] at s
    exact s

/-- Whatever calls have been made on the hall, and however their turns fell: once all have finished,
what a subscription made before the first of them has received rebuilds every stored record. -/
theorem rebuilds_of_isFinished {errands : List Errand} {turns : List Turn}
    {bus next : Broadcast Envelope} {inbox : Nat} (ho : bus.state = .open)
    (hs : bus.subscribe = some (inbox, next)) (hr : ∀ e ∈ errands, e.InRange)
    (hf : ((Hall.start (errands.map Errand.program) next).run turns).floor.IsFinished) :
    ∃ received rest, ((Hall.start (errands.map Errand.program) next).run turns).bus.drain inbox =
      some (received, rest) ∧
      ∀ sku record, ((Hall.start (errands.map Errand.program) next).run turns).floor.store.load
        sku = some record →
        Rebuilds received sku record := by
  have h0 : (Hall.start (errands.map Errand.program) next).bus.Holds inbox
      (Hall.start (errands.map Errand.program) next).floor.offered :=
    Broadcast.holds_subscribe ho hs
  obtain ⟨turns', h1, h2⟩ := Hall.run_eq h0 turns
  obtain ⟨rest, h3⟩ := h2.drain
  refine ⟨_, rest, h3, fun sku record hl => ?_⟩
  rw [h1] at hl hf ⊢
  have start := tracked_map (fun _ _ p => p.stand.IsFree) Errand.obeys_program errands
  obtain ⟨ps, es, ht, ha⟩ := start.run announced_advance (announced_start _) turns'
  exact rebuilds_of_isFree ht ha (ht.isFree_of_isFinished hf) (Errand.ordersInRange hr) hl

def bolt : NewItem := ⟨⟨.ofNat 1⟩, ⟨"BOLT"⟩, 10, none, none, none, none⟩

def boltErrands : List Errand :=
  [⟨.standard, .perform (.create bolt)⟩, ⟨.standard, .perform (.adjust bolt.sku (-3) none none)⟩]

/-- Turns in which an adjustment is told of before the creation that it came after. -/
def crossedTurns : List Turn :=
  [0, 0, 0, 1, 1, 1, 1, 1, 1, 0, 0, 0].map fun thread =>
    ⟨thread, fun q =>
      (Scene.answer q (.start ⟨0, 0, 0, by decide, by decide, by decide, by decide, by decide⟩
      fun _ => none)).1⟩

def crossedHall : Hall Unit :=
  (Hall.start (boltErrands.map Errand.program) ⟨[⟨[], false⟩], [0], .open⟩).run crossedTurns

theorem rebuilds_of_isFinished_crossedHall :
    ∃ received rest record, crossedHall.bus.drain 0 = some (received, rest) ∧
      received.map Envelope.sequenceNumber = [2, 1] ∧
      crossedHall.floor.store.load bolt.sku = some record ∧
      record.onHand = 7 ∧ Rebuilds received bolt.sku record := by
  have range : ∀ e ∈ boltErrands, e.InRange := by
    intro e he item hc
    rcases List.mem_cons.1 he with rfl | he
    · cases hc
      exact ⟨by decide, by decide, by decide⟩
    · cases List.mem_singleton.1 he
      cases hc
  have finished : crossedHall.floor.IsFinished := by decide +kernel
  have subscribed : (Broadcast.new : Broadcast Envelope).subscribe =
      some (0, ⟨[⟨[], false⟩], [0], .open⟩) := rfl
  obtain ⟨received, rest, h1, h2⟩ := rebuilds_of_isFinished rfl subscribed range finished
  have numbers : (crossedHall.bus.drain 0).map
      (fun p => p.1.map Envelope.sequenceNumber) = some [2, 1] := by
    decide +kernel
  have counts : (crossedHall.floor.store.load bolt.sku).map StockRecord.onHand = some 7 := by
    decide +kernel
  obtain ⟨record, h3, h4⟩ := Option.map_eq_some_iff.1 counts
  change crossedHall.bus.drain 0 = _ at h1
  rw [h1] at numbers
  exact ⟨received, rest, record, h1, Option.some.inj numbers, h3, h4, h2 _ _ h3⟩

end Stockroom.Ledger
