/-! Rounding a quotient to the nearest whole number. A quotient halfway between two whole numbers is
a tie, which goes to the even one or away from zero. -/
namespace Stockroom
set_option autoImplicit false

/-- Where a number halfway between two neighbours goes. -/
inductive Tie where
  | toEven
  | awayFromZero
  deriving DecidableEq

/-- The neighbour for a number halfway between `q` and `q + 1`. -/
def Tie.choose : Tie → Nat → Nat
  | .toEven, q => if q % 2 = 0 then q else q + 1
  | .awayFromZero, q => q + 1

/-- `n / d` to the nearest whole number. -/
def roundDiv (tie : Tie) (n d : Nat) : Nat :=
  if 2 * (n % d) < d then n / d
  else if d < 2 * (n % d) then n / d + 1
  else tie.choose (n / d)

/-! ## Distance -/

theorem Tie.choose_eq_or (tie : Tie) (q : Nat) : tie.choose q = q ∨ tie.choose q = q + 1 := by
  cases tie with
  | toEven => by_cases h : q % 2 = 0 <;> simp [choose, h]
  | awayFromZero => exact Or.inr rfl

/-- Nothing is further than half a unit away. -/
theorem roundDiv_error (tie : Tie) (n d : Nat) (h : 0 < d) :
    2 * n ≤ 2 * (d * roundDiv tie n d) + d ∧ 2 * (d * roundDiv tie n d) ≤ 2 * n + d := by
  have s1 := Nat.div_add_mod n d
  have s2 := Nat.mod_lt n h
  unfold roundDiv
  split
  · omega
  · split
    · rw [Nat.mul_add]
      omega
    · obtain e | e := tie.choose_eq_or (n / d)
      · rw [e]
        omega
      · rw [e, Nat.mul_add]
        omega

end Stockroom
