/-! Powers of ten and of two, for scales, grids and words. -/
namespace Stockroom
set_option autoImplicit false

def tenTo (k : Nat) : Nat := Nat.pow 10 k

def twoTo (k : Nat) : Nat := Nat.pow 2 k

/-! ## Exponents -/

@[simp] theorem tenTo_zero : tenTo 0 = 1 := rfl

theorem tenTo_succ (k : Nat) : tenTo (k + 1) = tenTo k * 10 := rfl

theorem tenTo_pos (k : Nat) : 0 < tenTo k := Nat.pow_pos (by decide)

theorem tenTo_add (j k : Nat) : tenTo (j + k) = tenTo j * tenTo k := Nat.pow_add 10 j k

end Stockroom
