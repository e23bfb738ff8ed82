import Stockroom.Bus.Broadcast
import Stockroom.Ledger.Floor

/-! A floor with a bus of its own. Every message is published on the bus in the turn in which it is
handed over, and the bus answers. -/
namespace Stockroom.Ledger
set_option autoImplicit false

structure Hall (α : Type) where
  floor : Floor α
  bus : Broadcast Envelope

/-- The question that a thread asks next, if it has not finished. -/
def Floor.question? {α : Type} (f : Floor α) (thread : Nat) : Option Request :=
  match f.threads[thread]? with
  | some ⟨.ask q _, _, _⟩ => some q
  | _ => none

namespace Hall

variable {α : Type}

def start (programs : List (Program α)) (bus : Broadcast Envelope) : Hall α :=
  ⟨.start programs, bus⟩

/-- What is said to a question with a bus at hand. -/
def reply (bus : Broadcast Envelope) (chance : (q : Request) → q.Reply) : (q : Request) → q.Reply
  | .publish envelope =>
    match bus.publish envelope with
    | .ok _ => none
    | .error _ => some "Poisoned"
  | q => chance q

/-- The bus after a question. -/
def hear (bus : Broadcast Envelope) : Request → Broadcast Envelope
  | .publish envelope =>
    match bus.publish envelope with
    | .ok next => next
    | .error _ => bus
  | _ => bus

def step (h : Hall α) (turn : Turn) : Hall α where
  floor := h.floor.step ⟨turn.thread, reply h.bus turn.chance⟩
  bus := (h.floor.question? turn.thread).elim h.bus (hear h.bus)

def run (h : Hall α) (turns : List Turn) : Hall α := turns.foldl step h

end Hall

end Stockroom.Ledger
