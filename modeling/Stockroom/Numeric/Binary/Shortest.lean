import Stockroom.Numeric.Power
import Stockroom.Numeric.Rounding
import Stockroom.Text.Digits

/-! The shortest decimal of a binary floating-point number: the fewest significant digits that are
nearer to the number than to any other, and of those the nearest; of two equally near ones the
format that is written decides. The number is `m * 2 ^ q`; the reals that round to it form an
interval, whose ends belong to it exactly when `m` is even. -/
namespace Stockroom.Binary
set_option autoImplicit false

/-- Sign, significand and exponent of a finite number; `none` for
infinities and undefined values. -/
def parts? (x : Float) : Option (Bool × Nat × Int) :=
  let bits : Nat := x.toBits.toNat
  let negative := bits / twoTo 63 == 1
  let exponent : Nat := bits / twoTo 52 % twoTo 11
  let fraction : Nat := bits % twoTo 52
  if exponent = 2047 then none
  else if exponent = 0 then some (negative, fraction, -1074)
  else some (negative, fraction + twoTo 52, (exponent : Int) - 1075)

/-- The positive rational `num / den`. -/
structure Ratio where
  num : Nat
  den : Nat

/-- `n * 2 ^ q * 10 ^ e` -/
def Ratio.scaled (n : Nat) (q e : Int) : Ratio :=
  ⟨n * twoTo q.toNat * tenTo e.toNat, twoTo (-q).toNat * tenTo (-e).toNat⟩

/-- Twice the distance from a number to its lower neighbour is smaller where the significand is
the least of its binade. -/
def lowerGap (m : Nat) (q : Int) : Nat := if m = twoTo 52 ∧ -1074 < q then 1 else 2

/-- Whether the integer `d`, in units of `10 ^ -e`, lies in the interval of `m * 2 ^ q`. All is
counted in quarters of `2 ^ q`. -/
def within (m : Nat) (q e : Int) (d : Nat) : Bool :=
  let low := Ratio.scaled (4 * m - lowerGap m q) q e
  let high := Ratio.scaled (4 * m + 2) q e
  if m % 2 = 0 then low.num ≤ 4 * d * low.den && 4 * d * high.den ≤ high.num
  else low.num < 4 * d * low.den && 4 * d * high.den < high.num

/-- On the grid of multiples of `10 ^ -e`, the neighbour of `m * 2 ^ q` that reads back; of two the
nearer, of two equally near the one that `tie` chooses. -/
def onGrid? (tie : Tie) (m : Nat) (q e : Int) : Option Nat :=
  let v := Ratio.scaled m q e
  let below := v.num / v.den
  let rest := v.num % v.den
  match within m q e below && below != 0, within m q e (below + 1) with
  | false, false => none
  | true, false => some below
  | false, true => some (below + 1)
  | true, true =>
    if 2 * rest < v.den then some below
    else if v.den < 2 * rest then some (below + 1)
    else some (tie.choose below)

/-- The number of digits before the point of `n / d`, at most zero where the
quotient is below one. -/
def magnitude (m : Nat) (q : Int) : Int :=
  let v := Ratio.scaled m q 0
  if v.den ≤ v.num then ((Text.digits (v.num / v.den)).length : Int)
  else 1 - ((Text.digits (v.den / v.num)).length : Int)

/-- Digits and exponent of the shortest decimal `d * 10 ^ e` of `m * 2 ^ q`, for a positive `m`. -/
def shortest (tie : Tie) (m : Nat) (q : Int) : Nat × Int :=
  let k := magnitude m q
  let hit := (List.range 19).findSome? fun p : Nat =>
    (onGrid? tie m q ((p : Int) - k)).map fun d => (d, k - (p : Int))
  hit.getD (m, 0)

/-- The decimal without zeros at its end. -/
def stripped : Nat → Nat → Int → Nat × Int
  | 0, d, e => (d, e)
  | fuel + 1, d, e => if d % 10 = 0 ∧ d ≠ 0 then stripped fuel (d / 10) (e + 1) else (d, e)

/-- Sign, digits and exponent of a finite number's shortest decimal. -/
def decimal? (tie : Tie) (x : Float) : Option (Bool × Nat × Int) :=
  (parts? x).map fun (negative, m, q) =>
    if m = 0 then (negative, 0, 0)
    else
      let (d, e) := shortest tie m q
      let (d, e) := stripped 20 d e
      (negative, d, e)

/-- The digits of `d * 10 ^ e` with a point where it is needed and no exponent. -/
def positional (d : Nat) (e : Int) : List Char :=
  if 0 ≤ e then Text.digits d ++ List.replicate (if d = 0 then 0 else e.toNat) '0'
  else
    let ds := Text.padded ((-e).toNat + 1) d
    ds.take (ds.length - (-e).toNat) ++ '.' :: ds.drop (ds.length - (-e).toNat)

/-- The shortest text of a finite number without an exponent; a tie goes up in magnitude. -/
def positionalText? (x : Float) : Option String :=
  (decimal? .awayFromZero x).map fun (negative, d, e) =>
    String.ofList (if negative then '-' :: positional d e else positional d e)

end Stockroom.Binary
