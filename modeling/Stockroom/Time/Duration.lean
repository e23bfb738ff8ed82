/-! Spans of time, in whole nanoseconds. A span is shorter than two to the power of 64 seconds. -/
namespace Stockroom
set_option autoImplicit false

/-- Two to the power of 64 seconds. -/
def Duration.bound : Nat := 18446744073709551616000000000

structure Duration where
  nanos : Nat
  nanos_lt : nanos < Duration.bound
  deriving DecidableEq

namespace Duration

def ofNanos? (n : Nat) : Option Duration := if h : n < bound then some ⟨n, h⟩ else none

/-- The span of the given nanoseconds, cut to the longest span. -/
def ofNanos (n : Nat) : Duration :=
  if h : n < bound then ⟨n, h⟩ else ⟨bound - 1, by decide⟩

def ofMillis (n : Nat) : Duration := ofNanos (n * 1000000)

def ofSeconds (n : Nat) : Duration := ofNanos (n * 1000000000)

def zero : Duration := ⟨0, by decide⟩

def seconds (d : Duration) : Nat := d.nanos / 1000000000

/-- The nanoseconds beyond the whole seconds. -/
def subsecond (d : Duration) : Nat := d.nanos % 1000000000

theorem nanos_ofNanos {n : Nat} (h : n < bound) : (ofNanos n).nanos = n := by
  rw [ofNanos, dif_pos h]

theorem seconds_lt (d : Duration) : d.seconds < 18446744073709551616 := by
  have s1 := d.nanos_lt
  simp only [seconds, bound] at *
  omega

theorem nanos_eq (d : Duration) : d.nanos = d.seconds * 1000000000 + d.subsecond := by
  simp only [seconds, subsecond]
  omega

end Duration

end Stockroom
