import Stockroom.Numeric.Word
import Stockroom.Time.Duration

/-! Retry policies: how often to try, and how long to wait in between. The ceiling of the wait grows
by a factor from one failed attempt to the next, up to a cap; the wait itself is drawn from all
whole nanoseconds up to the ceiling, as far as the ceiling's low 64 bits reach. -/
namespace Stockroom
set_option autoImplicit false

structure RetryPolicy where
  /-- All attempts, the first included; zero counts as one. -/
  maxAttempts : Nat
  /-- The ceiling after the first failed attempt. -/
  initialBackoff : Duration
  maxBackoff : Duration
  multiplier : Float
  /-- The time within which retries may start. -/
  deadline : Option Duration

namespace RetryPolicy

def standard : RetryPolicy where
  maxAttempts := 8
  initialBackoff := .ofMillis 2
  maxBackoff := .ofMillis 100
  multiplier := 2.0
  deadline := none

def noRetry : RetryPolicy := { standard with maxAttempts := 1 }

/-- The number of attempts that a policy allows. -/
def attempts (p : RetryPolicy) : Nat := max p.maxAttempts 1

/-! ## Backoff -/

/-- `r * a ^ n` by repeated squaring, for an `n` of at most as many binary digits as
the first argument says. -/
def powerFrom : Nat → Float → Float → Nat → Float
  | 0, r, _, _ => r
  | digits + 1, r, a, n =>
    let r := if n % 2 = 1 then r * a else r
    if n / 2 = 0 then r else powerFrom digits r (a * a) (n / 2)

/-- Exponents stop at the greatest signed 32-bit number. -/
def power (a : Float) (n : Nat) : Float := powerFrom 31 1.0 a (min n 2147483647)

/-- The upper bound of the wait after a failed attempt; attempts count from one. -/
def backoffCeiling (p : RetryPolicy) (attempt : Nat) : Duration :=
  let nanos := Float.ofNat p.initialBackoff.nanos * power p.multiplier (attempt - 1)
  if !nanos.isFinite || nanos ≥ Float.ofNat p.maxBackoff.nanos then p.maxBackoff
  else Duration.ofNanos nanos.toUInt64.toNat

/-- The greatest wait that can be drawn after a failed attempt, in nanoseconds. -/
def jitterBound (p : RetryPolicy) (attempt : Nat) : Nat :=
  (p.backoffCeiling attempt).nanos % wordBound

/-- The wait after a failed attempt, with a source of numbers up to a bound. For a bound of
zero nothing is drawn. -/
def jitteredBackoff (p : RetryPolicy) (attempt : Nat)
    (draw : (bound : Nat) → Fin (bound + 1)) : Duration :=
  if p.jitterBound attempt = 0 then .zero else .ofNanos (draw (p.jitterBound attempt)).val

/-! ## Building -/

/-- One setting of a policy. -/
inductive Setting where
  | maxAttempts (n : Nat)
  | initialBackoff (d : Duration)
  | maxBackoff (d : Duration)
  | multiplier (x : Float)
  | deadline (d : Duration)

def set (p : RetryPolicy) : Setting → RetryPolicy
  | .maxAttempts n => { p with maxAttempts := n }
  | .initialBackoff d => { p with initialBackoff := d }
  | .maxBackoff d => { p with maxBackoff := d }
  | .multiplier x => { p with multiplier := x }
  | .deadline d => { p with deadline := some d }

/-- The standard policy with the given settings; the last setting of a kind counts. -/
def build (settings : List Setting) : RetryPolicy := settings.foldl set standard

end RetryPolicy

end Stockroom
