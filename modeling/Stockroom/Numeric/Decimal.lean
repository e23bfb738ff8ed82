import Stockroom.Numeric.Power
import Stockroom.Numeric.Rounding

/-! Decimal numbers: a sign, a magnitude of at most 96 bits and a scale of at most 28 places. Sign
and scale are part of the number's form (`1.50` and `1.5` have one value and two forms, and so have
the two zeros of a scale); `sameValue` compares values. A product that needs more than 96 bits gives
up decimal places, and is rounded once, a half going to the even neighbour. -/
namespace Stockroom
set_option autoImplicit false

/-- One more than the greatest magnitude: two to the power of 96. -/
def Decimal.magnitudeBound : Nat := 79228162514264337593543950336

/-- The number `magnitude / 10 ^ scale` with its sign. -/
structure Decimal where
  isNegative : Bool
  magnitude : Nat
  scale : Nat
  magnitude_lt : magnitude < Decimal.magnitudeBound
  scale_le : scale ≤ 28
  deriving DecidableEq

namespace Decimal

def make? (isNegative : Bool) (magnitude scale : Nat) : Option Decimal :=
  if h : magnitude < magnitudeBound ∧ scale ≤ 28 then
    some ⟨isNegative, magnitude, scale, h.1, h.2⟩ else none

def zero : Decimal := ⟨false, 0, 0, by decide, by decide⟩

def ofInt? (n : Int) : Option Decimal := make? (decide (n < 0)) n.natAbs 0

/-- The magnitude with its sign: the number is `coefficient / 10 ^ scale`. -/
def coefficient (d : Decimal) : Int := if d.isNegative then -(d.magnitude : Int) else d.magnitude

def sameValue (a b : Decimal) : Bool :=
  a.coefficient * tenTo b.scale == b.coefficient * tenTo a.scale

/-- Whether the value of `a` is at most that of `b`. -/
def atMost (a b : Decimal) : Bool :=
  decide (a.coefficient * tenTo b.scale ≤ b.coefficient * tenTo a.scale)

/-! ## Products -/

/-- The magnitude `n / 10 ^ scale` with as few places given up as 96 bits
allow, and its new scale. -/
def fit? (n scale : Nat) : Option (Nat × Nat) :=
  (List.range (scale + 1)).findSome? fun k =>
    if roundDiv .toEven n (tenTo k) < magnitudeBound then
      some (roundDiv .toEven n (tenTo k), scale - k)
    else none

/-- The product with a whole number; `none` if it does not fit at any scale. A product with
zero is the plain zero. -/
def timesInt? (d : Decimal) (n : Int) : Option Decimal :=
  if d.magnitude = 0 ∨ n = 0 then some zero
  else fit? (d.magnitude * n.natAbs) d.scale >>= fun p =>
    make? (d.isNegative != decide (n < 0)) p.1 p.2

/-! ## Moving the point -/

/-- The number times `10 ^ n`: first by lowering the scale, then by whole powers of ten, which
leave no fraction digits. -/
def scaleUp? (d : Decimal) (n : Nat) : Option Decimal :=
  if n ≤ d.scale then make? d.isNegative d.magnitude (d.scale - n)
  else if 28 < n then none
  else make? d.isNegative (d.magnitude * tenTo (n - d.scale)) 0

/-- The number divided by `10 ^ n`, by raising the scale. Digits that would pass the last place are
rounded away, a half going up; the sign stays, also on what is rounded to zero. -/
def scaleDown? (d : Decimal) (n : Nat) : Option Decimal :=
  if 28 < n then none
  else if d.scale + n ≤ 28 then make? d.isNegative d.magnitude (d.scale + n)
  else make? d.isNegative (roundDiv .awayFromZero d.magnitude (tenTo (d.scale + n - 28))) 28

/-! ## First properties -/

theorem sameValue_refl (a : Decimal) : a.sameValue a = true := by simp [sameValue]

theorem sameValue_comm (a b : Decimal) : a.sameValue b = b.sameValue a := by
  rw [sameValue, sameValue, Bool.eq_iff_iff, beq_iff_eq, beq_iff_eq]
  exact eq_comm

theorem make?_parts (d : Decimal) : make? d.isNegative d.magnitude d.scale = some d :=
  dif_pos ⟨d.magnitude_lt, d.scale_le⟩

theorem natAbs_coefficient (d : Decimal) : d.coefficient.natAbs = d.magnitude := by
  unfold coefficient
  split <;> omega

end Decimal

end Stockroom
