import Stockroom.Ledger.Floor

/-! One program alone with a store. Nobody else writes, the bus takes or refuses each message as it
likes, and the world answers what is neither for the store nor for the bus. -/
namespace Stockroom.Ledger
set_option autoImplicit false

/-- The surroundings of a program that runs alone: `world` gives the answers by the number of the
question, `bus` by the messages it has been handed. -/
structure World where
  world : Nat → (q : Request) → q.Reply
  bus : List Envelope → Envelope → Option String

/-- A reading of the clock. -/
def World.Reads (w : World) (now : Timestamp) : Prop := ∃ n, w.world n .clock = now

/-- An identifier that is given out. -/
def World.Mints (w : World) (id : Uuid) : Prop := ∃ n, w.world n .freshId = id

structure Solo where
  store : Store
  /-- How many questions the store and the world have answered. -/
  asked : Nat
  /-- Every message handed to the bus so far, oldest first. -/
  offered : List Envelope

namespace Solo

def answer (w : World) : (q : Request) → Solo → q.Reply × Solo
  | .publish envelope, s =>
    (w.bus s.offered envelope, { s with offered := s.offered ++ [envelope] })
  | .note _, s => ((), s)
  | q, s =>
    ((s.store.answer (w.world s.asked) q).1,
      { s with store := (s.store.answer (w.world s.asked) q).2, asked := s.asked + 1 })

/-- Runs a program alone with a store, from its first question to its end. -/
def run {α : Type} (w : World) (store : Store) (p : Program α) : α × Solo :=
  p.run (answer w) ⟨store, 0, []⟩

end Solo

end Stockroom.Ledger
