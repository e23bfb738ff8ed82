/-! The ranges of 64-bit and 32-bit words. Counters and quantities are plain integers here; these
are the bounds that readers and checked sums hold them to. -/
namespace Stockroom
set_option autoImplicit false

/-- One more than the greatest unsigned 64-bit number. -/
def wordBound : Nat := 18446744073709551616

def fitsInt64 (n : Int) : Bool := -9223372036854775808 ≤ n && n < 9223372036854775808

def fitsUInt64 (n : Int) : Bool := 0 ≤ n && n < 18446744073709551616

def fitsUInt32 (n : Int) : Bool := 0 ≤ n && n < 4294967296

/-! ## Arithmetic that stops at the first number out of range -/

def word? (n : Int) : Option Int := if fitsInt64 n then some n else none

def addWord? (a b : Int) : Option Int := word? (a + b)

def subWord? (a b : Int) : Option Int := word? (a - b)

/-- Adds up from nothing, number by number. -/
def totalWord? (qs : List Int) : Option Int := qs.foldlM addWord? 0

theorem fitsInt64_iff (n : Int) :
    fitsInt64 n = true ↔ -9223372036854775808 ≤ n ∧ n < 9223372036854775808 := by
  simp [fitsInt64]

theorem fitsInt64_of_le {n m : Int} (h0 : 0 ≤ n) (h1 : n ≤ m)
    (hm : fitsInt64 m = true) : fitsInt64 n = true := by
  rw [fitsInt64_iff] at hm ⊢
  omega

theorem addWord?_eq {a b : Int} (h : fitsInt64 (a + b) = true) : addWord? a b = some (a + b) := by
  rw [addWord?, word?, if_pos h]

theorem subWord?_eq {a b : Int} (h : fitsInt64 (a - b) = true) : subWord? a b = some (a - b) := by
  rw [subWord?, word?, if_pos h]

example : addWord? 9223372036854775807 1 = none := by decide

end Stockroom
