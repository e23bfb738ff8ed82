import Stockroom.Json.Basic
import Stockroom.Numeric.Word
import Stockroom.Text.Digits

/-! Numbers of JSON documents. A number without fraction and exponent is an integer as far as
64 bits, signed or unsigned, hold it; every other number is a float. The float is the number's
leading digits, as many as 64 bits hold, times or divided by a power of ten, each of these
steps rounded to nearest. -/
namespace Stockroom.Json
set_option autoImplicit false

/-- The parts of a number as written. -/
structure Numeral where
  negative : Bool
  whole : List Nat
  fraction : Option (List Nat)
  exponent : Option (Bool × List Nat)
  deriving DecidableEq

namespace Numeral

def splitDigits (cs : List Char) : List Nat × List Char :=
  ((cs.takeWhile Char.isDigit).map fun c => c.toNat - 48, cs.dropWhile Char.isDigit)

def fraction? : List Char → Option (Option (List Nat) × List Char)
  | '.' :: cs =>
    if (splitDigits cs).1.isEmpty then none else some (some (splitDigits cs).1, (splitDigits cs).2)
  | cs => some (none, cs)

def isExponentMark (c : Char) : Bool := c == 'e' || c == 'E'

def signOf : List Char → Bool × List Char
  | '-' :: cs => (true, cs)
  | '+' :: cs => (false, cs)
  | cs => (false, cs)

def exponent? : List Char → Option (Option (Bool × List Nat))
  | [] => some none
  | c :: cs =>
    let (negative, cs) := signOf cs
    let (ds, rest) := splitDigits cs
    if isExponentMark c && !ds.isEmpty && rest.isEmpty then some (some (negative, ds)) else none

/-- The parts of a word that is a number: no plus sign in front, no zero in front of another digit,
digits after a point and after an exponent mark. -/
def ofWord? (cs : List Char) : Option Numeral :=
  let (negative, cs) := match cs with
    | '-' :: rest => (true, rest)
    | _ => (false, cs)
  let (whole, cs) := splitDigits cs
  if whole.isEmpty || (whole.length > 1 && whole.head? == some 0) then none
  else do
    let (fraction, cs) ← fraction? cs
    let exponent ← exponent? cs
    return ⟨negative, whole, fraction, exponent⟩

/-! ## Floats -/

/-- Leading digits of the whole part, and how many digits are left out. -/
def leading (ds : List Nat) : Nat × Nat :=
  ds.foldl (fun p d => if p.2 = 0 ∧ 10 * p.1 + d < wordBound then (10 * p.1 + d, 0)
    else (p.1, p.2 + 1)) (0, 0)

/-- Adds fraction digits as long as there is room; each lowers the exponent by one. -/
def extend (m : Nat) (e : Int) : List Nat → Nat × Int
  | [] => (m, e)
  | d :: ds => if 10 * m + d < wordBound then extend (10 * m + d) (e - 1) ds else (m, e)

def powerOfTen (k : Nat) : Float := Float.ofScientific 1 false k

def scaleDown (x : Float) (e : Nat) : Float :=
  if h : e ≤ 308 then x / powerOfTen e
  else if x == 0.0 then x
  else scaleDown (x / powerOfTen 308) (e - 308)
termination_by e

/-- `m * 10 ^ e`, if it is finite. -/
def float? (m : Nat) (e : Int) : Option Float :=
  let x := Float.ofNat m
  if e < 0 then some (scaleDown x (-e).toNat)
  else if m = 0 then some x
  else if 308 < e then none
  else if (x * powerOfTen e.toNat).isInf then none
  else some (x * powerOfTen e.toNat)

def real? (n : Numeral) : Option Float :=
  let (m, skipped) := leading n.whole
  let (m, e) := extend m skipped (n.fraction.getD [])
  let e := match n.exponent with
    | none => e
    | some (true, ds) => e - Text.valueOf ds
    | some (false, ds) => e + Text.valueOf ds
  (float? m e).map fun x => if n.negative then -x else x

/-- The document that a number stands for. A negative zero is a float. -/
def toJson (n : Numeral) : Json :=
  let m := Text.valueOf n.whole
  if n.fraction.isNone && n.exponent.isNone && !n.negative && m < wordBound then .integer m
  else if n.fraction.isNone && n.exponent.isNone && n.negative && 0 < m &&
    m ≤ 9223372036854775808 then .integer (-(m : Int))
  else (real? n).elim .unreadable .real

end Numeral

end Stockroom.Json
