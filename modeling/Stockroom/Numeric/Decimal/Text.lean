import Stockroom.Numeric.Decimal
import Stockroom.Text.Digits

/-! The text forms of decimals. A decimal is written with exactly `scale` fraction digits. Reading
takes an optional sign, digits with at most one point, and underscores after the first digit; the
first fraction digit without room rounds the number half up, and the digits after it do not count.
Behind the last place of a number of one word an underscore takes the part of that digit, and rounds
nothing. A text that is no such number may still be one with an exponent. -/
namespace Stockroom.Decimal
set_option autoImplicit false

/-! ## Writing -/

/-- The digits of the magnitude with at least one before the point. -/
def pointed (m scale : Nat) : List Char :=
  if scale = 0 then Text.digits m
  else
    let ds := Text.padded (scale + 1) m
    ds.take (ds.length - scale) ++ '.' :: ds.drop (ds.length - scale)

def chars (d : Decimal) : List Char :=
  if d.isNegative then '-' :: pointed d.magnitude d.scale else pointed d.magnitude d.scale

def text (d : Decimal) : String := String.ofList d.chars

/-! ## Reading -/

/-- What has been read of a number: its magnitude `m / 10 ^ scale`, whether the point has come,
and whether a digit has. -/
structure Reading where
  m : Nat
  scale : Nat
  inFraction : Bool
  started : Bool
  deriving DecidableEq

/-- Whether the last fraction digit has been read that a scale can count. -/
def Reading.isFull (r : Reading) : Bool := r.inFraction && r.scale == 28

def Reading.hasRoom (r : Reading) (digit : Nat) : Bool :=
  !r.isFull && decide (10 * r.m + digit < magnitudeBound)

/-- A number stays in one word of 64 bits while what stands before its last digit is below this
bound: a tenth of the greatest word, less a margin of 255. -/
def wordPrefixBound : Nat := 1844674407370954906

/-- Whether an underscore ends the number: one that is full and has been read in one word. -/
def Reading.endsAtUnderscore (r : Reading) : Bool := r.isFull && decide (r.m / 10 < wordPrefixBound)

def Reading.push (r : Reading) (digit : Nat) : Reading :=
  ⟨10 * r.m + digit, if r.inFraction then r.scale + 1 else 0, r.inFraction, true⟩

/-- Ends a number at a digit for which there is no room: rounds half up, and gives up one more place
if the magnitude then leaves its range. -/
def Reading.roundOff (r : Reading) (digit : Nat) : Option (Nat × Nat) :=
  if digit < 5 then some (r.m, r.scale)
  else if r.m + 1 < magnitudeBound then some (r.m + 1, r.scale)
  else if r.scale = 0 then none
  else some (roundDiv .awayFromZero (r.m + 1) 10, r.scale - 1)

/-- What may follow the end of a number. -/
def isFiller (c : Char) : Bool := c == '_' || (Text.digit? c).isSome

/-- Magnitude and scale of an unsigned number. Whole digits must all have room. -/
def Reading.run (r : Reading) : List Char → Option (Nat × Nat)
  | [] => if r.started then some (r.m, r.scale) else none
  | c :: cs =>
    match Text.digit? c with
    | some digit =>
      if r.hasRoom digit then Reading.run (r.push digit) cs
      else if r.inFraction && cs.all isFiller then r.roundOff digit
      else none
    | none =>
      if c = '.' && !r.inFraction then Reading.run { r with inFraction := true } cs
      else if c = '_' && r.started then
        if r.endsAtUnderscore then
          if cs.all isFiller then some (r.m, r.scale) else none
        else Reading.run r cs
      else none

/-- An unsigned number under the given sign. A zero in digits takes no sign. -/
def unsigned? (isNegative : Bool) (cs : List Char) : Option Decimal :=
  Reading.run ⟨0, 0, false, false⟩ cs >>= fun p => make? (isNegative && p.1 != 0) p.1 p.2

/-- A number without exponent. -/
def plain? : List Char → Option Decimal
  | '-' :: cs => unsigned? true cs
  | '+' :: cs => unsigned? false cs
  | cs => unsigned? false cs

/-- A number in digits with an optional plus sign. -/
def exponent? : List Char → Option Nat
  | '+' :: cs => Text.number? cs
  | cs => Text.number? cs

/-- A number with an exponent. -/
def withExponent? (cs : List Char) : Option Decimal :=
  let isMark := fun c : Char => c == 'e' || c == 'E'
  match cs.dropWhile fun c => !isMark c with
  | [] => none
  | _ :: exponent =>
    plain? (cs.takeWhile fun c => !isMark c) >>= fun d =>
      match exponent with
      | '-' :: ds => exponent? ds >>= scaleDown? d
      | ds => exponent? ds >>= scaleUp? d

def parse? (s : String) : Option Decimal := (plain? s.toList).or (withExponent? s.toList)

end Stockroom.Decimal
