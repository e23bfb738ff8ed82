import Mathlib.Control.Basic
import Stockroom.Retry.Run

/-! An account of a run of attempts. The surroundings and the operation may be of any state;
beside it is written down what the operation was told and how it came out, which waits were drawn,
and what the clock read. -/
namespace Stockroom.Retry
set_option autoImplicit false

structure Account (σ ε α : Type) where
  state : σ
  /-- Each attempt, by its number, and its outcome, oldest first. -/
  calls : List (Nat × Except ε α)
  /-- The waits drawn. -/
  drawn : List Nat
  /-- The readings of the time since the run began. -/
  read : List Nat

namespace Account

variable {σ ε α : Type}

def start (state : σ) : Account σ ε α := ⟨state, [], [], []⟩

/-- The outcome of the last attempt. -/
def outcome? (a : Account σ ε α) : Option (Except ε α) := a.calls.getLast?.map Prod.snd

/-- An operation, each call of it written down. -/
def kept (operation : Nat → StateM σ (Except ε α)) (attempt : Nat) :
    StateM (Account σ ε α) (Except ε α) := fun a =>
  let called := operation attempt a.state
  (called.1, { a with state := called.2, calls := a.calls ++ [(attempt, called.1)] })

/-- Surroundings, with what they answer written down. -/
def keeping (s : Surroundings (StateM σ)) : Surroundings (StateM (Account σ ε α)) where
  draw bound a :=
    let drawn := s.draw bound a.state
    (drawn.1, { a with state := drawn.2, drawn := a.drawn ++ [drawn.1.val] })
  elapsed a :=
    let read := s.elapsed a.state
    (read.1, { a with state := read.2, read := a.read ++ [read.1] })
  wait nanos a := ((), { a with state := (s.wait nanos a.state).2 })
  note entry a := ((), { a with state := (s.note entry a.state).2 })

end Account

end Stockroom.Retry
