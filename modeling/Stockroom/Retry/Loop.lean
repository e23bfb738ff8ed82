import Stockroom.Retry.Run

/-! Retries as one endless loop. A pass counts the attempt, makes it, and leaves the loop on a
success, on a failure for good, after the last attempt and at the deadline, asked in this order; if
none of them is the case it waits. The counter is a 32-bit number. -/
namespace Stockroom.Retry
set_option autoImplicit false

/-- The greatest number that the counter of attempts reaches. -/
def counterMax : Nat := 4294967295

variable {m : Type → Type} [Monad m] {ε α : Type}

/-- The loop from a given number of attempts on, broken off after so many passes; `none` if it is
broken off, or if the counter would overflow. -/
def loop (s : Surroundings m) (policy : RetryPolicy) (operation : Nat → m (Except ε α))
    (isRetryable : ε → Bool) :
    Nat → Nat → m (Option (Except (Failure ε) α))
  | 0, _ => pure none
  | passes + 1, counter =>
    if counterMax ≤ counter then pure none
    else do
      let attempt := counter + 1
      match ← operation attempt with
      | .ok a =>
        if 1 < attempt then
          s.note (.debug "operation succeeded after retry" [("attempt", .number attempt)])
        return some (.ok a)
      | .error e =>
        if !isRetryable e then return some (.error (.fatal e))
        else if policy.attempts ≤ attempt then return some (.error (.exhausted attempt e))
        else
          let wait ← s.draw (policy.jitterBound attempt)
          if ← reachesDeadline s policy wait then return some (.error (.exhausted attempt e))
          else
            s.note (.debug "retryable failure, backing off"
              [("attempt", .number attempt), ("backoff_us", .number (wait / 1000 : Nat))])
            s.wait wait
            loop s policy operation isRetryable passes attempt

end Stockroom.Retry
