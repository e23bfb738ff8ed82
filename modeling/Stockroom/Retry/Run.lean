import Stockroom.Log.Entry
import Stockroom.Retry.Policy

/-! Bounded retries. An operation is tried until it succeeds, fails for good, or has used up the
policy's attempts or time. Waits, clock and log belong to the surroundings, so that a run is a
function of what they answer. -/
namespace Stockroom.Retry
set_option autoImplicit false

/-- What a run needs beside the operation. -/
structure Surroundings (m : Type → Type) where
  /-- Draws a wait of at most the given number of nanoseconds. -/
  draw : (bound : Nat) → m (Fin (bound + 1))
  /-- The nanoseconds since the run began. -/
  elapsed : m Nat
  wait : (nanos : Nat) → m Unit
  note : LogEntry → m Unit

/-- How a run fails. -/
inductive Failure (ε : Type) where
  /-- The operation failed in a way that trying again does not mend. -/
  | fatal (error : ε)
  | exhausted (attempts : Nat) (last : ε)
  deriving DecidableEq

def Failure.cause {ε : Type} : Failure ε → ε
  | .fatal e => e
  | .exhausted _ e => e

variable {m : Type → Type} [Monad m] {ε α : Type}

/-- Whether a wait would reach the deadline, if there is one. -/
def reachesDeadline (s : Surroundings m) (policy : RetryPolicy) (wait : Nat) : m Bool :=
  match policy.deadline with
  | none => pure false
  | some d => do return decide (d.nanos ≤ (← s.elapsed) + wait)

/-- The attempts from a given one on, with so many more left after it. -/
def runFrom (s : Surroundings m) (policy : RetryPolicy) (operation : Nat → m (Except ε α))
    (isRetryable : ε → Bool) : Nat → Nat → m (Except (Failure ε) α)
  | left, attempt => do
    match ← operation attempt with
    | .ok a =>
      if 1 < attempt then
        s.note (.debug "operation succeeded after retry" [("attempt", .number attempt)])
      return .ok a
    | .error e =>
      if !isRetryable e then return .error (.fatal e)
      else
        match left with
        | 0 => return .error (.exhausted attempt e)
        | left + 1 =>
          let wait ← s.draw (policy.jitterBound attempt)
          if ← reachesDeadline s policy wait then return .error (.exhausted attempt e)
          else
            s.note (.debug "retryable failure, backing off"
              [("attempt", .number attempt), ("backoff_us", .number (wait / 1000 : Nat))])
            s.wait wait
            runFrom s policy operation isRetryable left (attempt + 1)

/-- Tries an operation, which is told the number of the attempt. -/
def run (s : Surroundings m) (policy : RetryPolicy) (operation : Nat → m (Except ε α))
    (isRetryable : ε → Bool) : m (Except (Failure ε) α) :=
  runFrom s policy operation isRetryable (policy.attempts - 1) 1

end Stockroom.Retry
