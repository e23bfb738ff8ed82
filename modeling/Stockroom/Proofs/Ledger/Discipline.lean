import Mathlib.Data.List.Forall2
import Stockroom.Ledger.Floor
import Stockroom.Proofs.Ledger.Course

/-! The discipline of programs that write. A program stands somewhere between its questions:
free, with a record to decide on, with a reading of the clock, or owing messages about what it
has committed. `Move` says which questions it may ask where, and where an answer takes it;
`Obeys` says that a program keeps to the moves whatever it is answered, and is proved of the
operations once, part by part. -/
namespace Stockroom
set_option autoImplicit false

namespace Program

variable {α β σ : Type}

/-- From `s` on, every question of the program is a move, and it ends as `post` says. -/
def Obeys (move : σ → (q : Request) → q.Reply → σ → Prop)
    (post : α → σ → Prop) : Program α → σ → Prop
  | .done a, s => post a s
  | .ask q next, s => ∀ reply, ∃ s', move s q reply s' ∧ (next reply).Obeys move post s'

variable {move : σ → (q : Request) → q.Reply → σ → Prop}

theorem obeys_request_bind {post : β → σ → Prop} {q : Request} {f : q.Reply → Program β} {s : σ} :
    (request q >>= f).Obeys move post s ↔
      ∀ reply, ∃ s', move s q reply s' ∧ (f reply).Obeys move post s' := Iff.rfl

theorem Obeys.bind {mid : α → σ → Prop} {post : β → σ → Prop} {p : Program α} {f : α → Program β}
    {s : σ} (h : p.Obeys move mid s) (hf : ∀ a s', mid a s' → (f a).Obeys move post s') :
    (p >>= f).Obeys move post s := by
  induction p generalizing s with
  | done a => exact hf a s h
  | ask q next ih =>
    intro reply
    obtain ⟨s', hm, hn⟩ := h reply
    exact ⟨s', hm, ih reply hn⟩

/-- In surroundings that keep a relation between where the program stands and their own state, the
program ends with that relation. -/
theorem Obeys.run {τ : Type} {post : α → σ → Prop} {rel : σ → τ → Prop}
    {answer : (q : Request) → τ → q.Reply × τ} {p : Program α} {s : σ} {t : τ}
    (h : p.Obeys move post s) (hr : rel s t)
    (keep : ∀ s t q s', rel s t → move s q (answer q t).1 s' → rel s' (answer q t).2) :
    ∃ s', post (p.run answer t).1 s' ∧ rel s' (p.run answer t).2 := by
  induction p generalizing s t with
  | done a => exact ⟨s, h, hr⟩
  | ask q next ih =>
    obtain ⟨s', hm, hn⟩ := h (answer q t).1
    exact ih _ hn (keep s t q s' hr hm)

/-- To keep to the moves is a logic of programs. -/
def obedience (move : σ → (q : Request) → q.Reply → σ → Prop) : Logic σ where
  Holds p s post := p.Obeys move post s
  pure h := h
  bind h hf := h.bind hf

theorem Obeys.mono {mid post : α → σ → Prop} {p : Program α} {s : σ} (h : p.Obeys move mid s)
    (hp : ∀ a s', mid a s' → post a s') : p.Obeys move post s :=
  (obedience move).mono h hp

end Program

namespace Ledger

/-! ## Where a program stands -/

/-- What a decision is made on: an empty record under a new identifier, or a
record that was loaded. -/
inductive Basis where
  | fresh (id : Uuid) (sku : SkuCode)
  | stored (sku : SkuCode) (record : StockRecord)

def Basis.record : Basis → StockRecord
  | .fresh id sku => .empty ⟨id⟩ sku
  | .stored _ record => record

inductive Stand where
  | free
  | based (basis : Basis)
  | timed (basis : Basis) (now : Timestamp)
  | owing (record : StockRecord) (events : List Event)
  | naming (record : StockRecord) (events : List Event) (id : Uuid)

/-- Nothing is owed: a new decision may begin. -/
def Stand.IsFree : Stand → Prop
  | .owing _ events => events = []
  | .naming .. => False
  | _ => True

/-- The events of a record that are still owed. -/
def Stand.pending (r : StockRecord) : Stand → List Event
  | .owing record events => if record = r then events else []
  | .naming record events _ => if record = r then events else []
  | _ => []

theorem Stand.IsFree.pending {s : Stand} (h : s.IsFree) (r : StockRecord) : s.pending r = [] := by
  cases s with
  | owing record events =>
    cases h
    exact ite_self _
  | naming record events id => cases h
  | _ => rfl

/-- Where a program stands, and what it has committed so far. -/
structure Progress where
  stand : Stand
  made : List Commit

/-- What a program is entitled to: the units it may write, and the commands
it may give at a moment. -/
structure Mandate where
  covers : SkuCode → Prop
  orders : Timestamp → Command → Prop

/-- The mandates of several programs, by their numbers. -/
def mandateOf (ms : List Mandate) (i : Nat) : Mandate :=
  ms[i]?.getD ⟨fun _ => False, fun _ _ => False⟩

def Mandate.Decides (m : Mandate) (b : Basis) (now : Timestamp) (candidate : StockRecord)
    (events : List Event) : Prop :=
  ∃ command, m.orders now command ∧ b.record.execute command = .ok (candidate, events) ∧ events ≠ []

/-- Questions that neither read nor change anything a decision rests on. -/
def Request.IsAside : Request → Prop
  | .note _ => True
  | .draw _ => True
  | .elapsed => True
  | .wait _ => True
  | .scan => True
  | _ => False

theorem isAside_of_isPassing {q : Request} (h : Request.IsPassing q) : Request.IsAside q := by
  cases q <;> first | exact trivial | exact h

inductive Move (m : Mandate) : Progress → (q : Request) → q.Reply → Progress → Prop where
  | aside {p : Progress} {q : Request} {reply : q.Reply}
    (h : Request.IsAside q) : Move m p q reply p
  | found {p : Progress} {sku : SkuCode} {record : StockRecord} (hp : p.stand.IsFree)
    (hc : m.covers sku) :
    Move m p (.load sku) (.ok (some record)) ⟨.based (.stored sku record), p.made⟩
  | missed {p : Progress} {sku : SkuCode} {reply : Except StoreError (Option StockRecord)}
    (hp : p.stand.IsFree) :
    Move m p (.load sku) reply ⟨.free, p.made⟩
  | minted {p : Progress} {sku : SkuCode} {id : Uuid} (hp : p.stand.IsFree) (hc : m.covers sku) :
    Move m p .freshId id ⟨.based (.fresh id sku), p.made⟩
  | looked {made : List Commit} {now : Timestamp} : Move m ⟨.free, made⟩ .clock now ⟨.free, made⟩
  | timed {b : Basis} {made : List Commit} {now : Timestamp} :
    Move m ⟨.based b, made⟩ .clock now ⟨.timed b now, made⟩
  | inserted {id : Uuid} {sku : SkuCode} {now : Timestamp} {made : List Commit}
    {candidate record : StockRecord} {events : List Event}
    (hd : m.Decides (.fresh id sku) now candidate events) :
    Move m ⟨.timed (.fresh id sku) now, made⟩ (.insert candidate) (.ok record)
      ⟨.owing record events, made ++ [⟨record, events⟩]⟩
  | swapped {sku : SkuCode} {current : StockRecord} {now : Timestamp} {made : List Commit}
    {candidate record : StockRecord} {events : List Event}
    (hd : m.Decides (.stored sku current) now candidate events) :
    Move m ⟨.timed (.stored sku current) now, made⟩
      (.swap candidate (.exactly current.version)) (.ok record)
      ⟨.owing record events, made ++ [⟨record, events⟩]⟩
  | notInserted {b : Basis} {now : Timestamp} {made : List Commit} {candidate : StockRecord}
    {e : StoreError} :
    Move m ⟨.timed b now, made⟩ (.insert candidate) (.error e) ⟨.free, made⟩
  | notSwapped {b : Basis} {now : Timestamp} {made : List Commit} {candidate : StockRecord}
    {expected : ExpectedVersion} {e : StoreError} :
    Move m ⟨.timed b now, made⟩ (.swap candidate expected) (.error e) ⟨.free, made⟩
  | named {record : StockRecord} {event : Event} {events : List Event} {made : List Commit}
    {id : Uuid} :
    Move m ⟨.owing record (event :: events), made⟩ .freshId id
      ⟨.naming record (event :: events) id, made⟩
  | offered {record : StockRecord} {event : Event} {events : List Event} {made : List Commit}
    {id : Uuid} {reply : Option String} :
    Move m ⟨.naming record (event :: events) id, made⟩ (.publish (.about id record event)) reply
      ⟨.owing record events, made⟩

/-- What a move has to do with messages: it leaves all that is owed as it is, or it writes a record,
before which nothing was owed, or it hands over the message about the next event that is owed. -/
theorem Move.cases_pending {m : Mandate} {p p' : Progress} {q : Request} {reply : q.Reply}
    (h : Move m p q reply p') :
    (q.offers = [] ∧ q.written? reply = none ∧ ∀ r, p'.stand.pending r = p.stand.pending r) ∨
      (q.offers = [] ∧ (q.written? reply).isSome = true ∧ ∀ r, p.stand.pending r = []) ∨
      ∃ id record event events, q.offers = [.about id record event] ∧ q.written? reply = none ∧
        p.stand = .naming record (event :: events) id ∧ p'.stand = .owing record events := by
  cases h with
  | aside ha =>
    refine Or.inl ⟨?_, ?_, fun _ => rfl⟩
    · cases q <;> first | rfl | cases ha
    · cases q <;> first | rfl | cases ha
  | found hf hc => exact Or.inl ⟨rfl, rfl, fun r => (hf.pending r).symm⟩
  | missed hf => exact Or.inl ⟨rfl, rfl, fun r => (hf.pending r).symm⟩
  | minted hf hc => exact Or.inl ⟨rfl, rfl, fun r => (hf.pending r).symm⟩
  | looked => exact Or.inl ⟨rfl, rfl, fun _ => rfl⟩
  | timed => exact Or.inl ⟨rfl, rfl, fun _ => rfl⟩
  | inserted hd => exact Or.inr (Or.inl ⟨rfl, rfl, fun _ => rfl⟩)
  | swapped hd => exact Or.inr (Or.inl ⟨rfl, rfl, fun _ => rfl⟩)
  | notInserted => exact Or.inl ⟨rfl, rfl, fun _ => rfl⟩
  | notSwapped => exact Or.inl ⟨rfl, rfl, fun _ => rfl⟩
  | named => exact Or.inl ⟨rfl, rfl, fun _ => rfl⟩
  | offered => exact Or.inr (Or.inr ⟨_, _, _, _, rfl, rfl, rfl, rfl⟩)

/-! ## How an operation ends -/

/-- Where a program stands that has nothing to do: with a record of a unit it covers, and with a
reading of the clock at which it may give a command that makes no events of the record. -/
def Mandate.Idles (m : Mandate) (record : StockRecord) (stand : Stand) : Prop :=
  ∃ sku now command, m.covers sku ∧ m.orders now command ∧ stand = .timed (.stored sku record) now ∧
    record.execute command = .ok (record, [])

/-- Where an operation ends that began with `made`: a failure and an idle answer leave it at that,
an answer with events adds one commit, of which the events `left` are still owed. An idle answer is
a record of which the command made no events. -/
def Outcome (m : Mandate) (made : List Commit) (left : Commit → List Event) {ε : Type} :
    Except ε Commit → Progress → Prop
  | .error _, p => p.made = made ∧ p.stand.IsFree
  | .ok c, p =>
    (c.events = [] ∧ p.made = made ∧ m.Idles c.record p.stand) ∨
      (c.events ≠ [] ∧ p.made = made ++ [c] ∧ p.stand = .owing c.record (left c))

/-! ## What has been told -/

/-- A message about an event of a record as committed. -/
def Tells (record : StockRecord) (envelope : Envelope) (event : Event) : Prop :=
  ∃ id, envelope = .about id record event

/-- The messages tell of the events of a commit in their order, but for the events still owed. -/
def Told (offered : List Envelope) (c : Commit) (s : Stand) : Prop :=
  ∃ done, c.events = done ++ s.pending c.record ∧ List.Forall₂ (Tells c.record) offered done

theorem told_nil {c : Commit} {s : Stand} (h : s.pending c.record = c.events) : Told [] c s :=
  ⟨[], h.symm, .nil⟩

theorem Told.congr {offered : List Envelope} {c : Commit} {s s' : Stand} (h : Told offered c s)
    (hp : s'.pending c.record = s.pending c.record) : Told offered c s' := by
  obtain ⟨done, h1, h2⟩ := h
  exact ⟨done, by rw [hp, h1], h2⟩

theorem Told.offer {offered : List Envelope} {c : Commit} {event : Event} {events : List Event}
    {id : Uuid} (h : Told offered c (.naming c.record (event :: events) id)) :
    Told (offered ++ [.about id c.record event]) c (.owing c.record events) := by
  obtain ⟨done, h1, h2⟩ := h
  rw [Stand.pending, if_pos rfl] at h1
  refine ⟨done ++ [event], ?_, List.rel_append h2 (.cons ⟨id, rfl⟩ .nil)⟩
  rw [Stand.pending, if_pos rfl, List.append_assoc]
  exact h1

theorem Told.complete {offered : List Envelope} {c : Commit} {s : Stand} (h : Told offered c s)
    (hs : s.IsFree) :
    List.Forall₂ (Tells c.record) offered c.events := by
  obtain ⟨done, h1, h2⟩ := h
  rw [hs.pending, List.append_nil] at h1
  rw [h1]
  exact h2

end Ledger

end Stockroom
