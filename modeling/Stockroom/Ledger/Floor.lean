import Stockroom.Ledger.Task
import Stockroom.Store.Basic

/-! Several programs at once over one store. In each turn one thread asks its next question: the
store answers its own questions, in one indivisible step each, and chance answers all others. The
floor keeps account of every record that was written, with the thread that wrote it and what that
thread had last been told. -/
namespace Stockroom
set_option autoImplicit false

/-- The answer to a question: a store's own, or what is said for the rest of the world. -/
def Store.answer (chance : (q : Request) → q.Reply) (s : Store) : (q : Request) → q.Reply × Store
  | .load sku => (.ok (s.load sku), s)
  | .insert record =>
    match s.insert record with
    | .ok (stored, next) => (.ok stored, next)
    | .error e => (.error e, s)
  | .swap candidate expected =>
    match s.swap candidate expected with
    | .ok (stored, next) => (.ok stored, next)
    | .error e => (.error e, s)
  | .scan => (.ok s.scan, s)
  | q => (chance q, s)

namespace Request

/-- The record that a question has had written, if it was answered with one. -/
def written? : (q : Request) → q.Reply → Option StockRecord
  | .insert _, reply => Except.toOption reply
  | .swap _ _, reply => Except.toOption reply
  | _, _ => none

/-- The messages that a question hands to the bus. -/
def offers : Request → List Envelope
  | .publish envelope => [envelope]
  | _ => []

end Request

namespace Ledger

/-- What is left of a program, and the last answers it had from the clock and the
source of identifiers. -/
structure Thread (α : Type) where
  rest : Program α
  clock : Option Timestamp
  minted : Option Uuid

def Thread.hear {α : Type} (t : Thread α) (rest : Program α) : (q : Request) → q.Reply → Thread α
  | .clock, now => { t with rest := rest, clock := some now }
  | .freshId, id => { t with rest := rest, minted := some id }
  | _, _ => { t with rest := rest }

structure Write where
  thread : Nat
  record : StockRecord
  clock : Option Timestamp
  minted : Option Uuid

/-- A turn: whose it is, and what is said in it for the rest of the world. -/
structure Turn where
  thread : Nat
  chance : (q : Request) → q.Reply

structure Floor (α : Type) where
  store : Store
  threads : List (Thread α)
  /-- Every record written so far, oldest first. -/
  writes : List Write
  /-- Every message handed to the bus so far, oldest first. -/
  offered : List Envelope

namespace Floor

variable {α : Type}

/-- An empty store, and programs that have not begun. -/
def start (programs : List (Program α)) : Floor α :=
  ⟨.empty, programs.map fun p => ⟨p, none, none⟩, [], []⟩

/-- The floor after a question of a thread and its answer. -/
def advance (f : Floor α) (turn : Turn) (t : Thread α) (q : Request)
    (next : q.Reply → Program α) : Floor α :=
  let reply := (f.store.answer turn.chance q).1
  { store := (f.store.answer turn.chance q).2
    threads := f.threads.set turn.thread (t.hear (next reply) q reply)
    writes := f.writes ++ (q.written? reply).toList.map fun r => ⟨turn.thread, r, t.clock, t.minted⟩
    offered := f.offered ++ q.offers }

/-- A turn of a thread that has finished, or that there is not, passes. -/
def step (f : Floor α) (turn : Turn) : Floor α :=
  match f.threads[turn.thread]? with
  | none => f
  | some t =>
    match t.rest with
    | .done _ => f
    | .ask q next => f.advance turn t q next

def run (f : Floor α) (turns : List Turn) : Floor α := turns.foldl step f

/-- What a thread has come to, if it has finished. -/
def result? (f : Floor α) (thread : Nat) : Option α :=
  match f.threads[thread]? with
  | some ⟨.done a, _, _⟩ => some a
  | _ => none

/-- The successive records of a unit. -/
def chain (f : Floor α) (sku : SkuCode) : List Write := f.writes.filter fun w => w.record.sku = sku

/-- The writes of one thread. -/
def owned (f : Floor α) (thread : Nat) : List Write := f.writes.filter fun w => w.thread = thread

end Floor

/-- The version of a record that may not be there yet. -/
def versionOf (r : Option StockRecord) : Nat := (r.map StockRecord.version).getD 0

/-- What a write was decided on: the record before it, or else an empty one under the identifier
that its thread had last been given. -/
def Write.basis? (w : Write) (before : Option StockRecord) : Option StockRecord :=
  before.or (w.minted.map fun id => .empty ⟨id⟩ w.record.sku)

/-- A write is the outcome of one command on the record before it, stamped with the next version.
The command is one that the writing thread may give at the reading of the clock it decided by. -/
def Write.Continues (orders : Nat → Timestamp → Command → Prop) (before : Option StockRecord)
    (w : Write) (events : List Event) : Prop :=
  ∃ base now command candidate, w.basis? before = some base ∧ w.clock = some now ∧
    orders w.thread now command ∧ base.execute command = .ok (candidate, events) ∧ events ≠ [] ∧
    w.record = candidate.atVersion (versionOf before + 1)

end Ledger

end Stockroom
