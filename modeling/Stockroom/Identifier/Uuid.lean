import Stockroom.Text.Digits

/-! Universally unique identifiers and their text forms. An identifier is its 32 hexadecimal digits.
It is written in five hyphenated groups of lower-case digits, and read in that form, without
hyphens, in braces or behind `urn:uuid:`, with digits in either case. -/
namespace Stockroom
set_option autoImplicit false

structure Uuid where
  digits : List (Fin 16)
  length_digits : digits.length = 32
  deriving DecidableEq

namespace Uuid

/-- The identifier whose digits spell a number, as far as 32 digits reach. -/
def ofNat (n : Nat) : Uuid where
  digits := (List.range 32).map fun i => Fin.ofNat 16 (n >>> (4 * (31 - i)))
  length_digits := by simp

/-! ## Written form -/

/-- The sizes of the five groups. -/
def groups : List Nat := [8, 4, 4, 4, 12]

def hexDigits : List Char :=
  ['0', '1', '2', '3', '4', '5', '6', '7', '8', '9', 'a', 'b', 'c', 'd', 'e', 'f']

def hexChar (d : Fin 16) : Char := hexDigits.get ⟨d.val, by simp [hexDigits]⟩

/-- Digits in groups of the given sizes, with a hyphen between two groups. -/
def writeGroups : List Nat → List (Fin 16) → List Char
  | [], _ => []
  | [k], ds => (ds.take k).map hexChar
  | k :: ks, ds => (ds.take k).map hexChar ++ '-' :: writeGroups ks (ds.drop k)

def chars (u : Uuid) : List Char := writeGroups groups u.digits

def text (u : Uuid) : String := String.ofList u.chars

/-! ## Reading -/

def hexDigit? (c : Char) : Option (Fin 16) :=
  if '0' ≤ c ∧ c ≤ '9' then some (Fin.ofNat 16 (c.toNat - 48))
  else if 'a' ≤ c ∧ c ≤ 'f' then some (Fin.ofNat 16 (c.toNat - 87))
  else if 'A' ≤ c ∧ c ≤ 'F' then some (Fin.ofNat 16 (c.toNat - 55))
  else none

def ofDigits? (ds : List (Fin 16)) : Option Uuid :=
  if h : ds.length = 32 then some ⟨ds, h⟩ else none

def readGroups : List Nat → List Char → Option (List (Fin 16))
  | [], cs => if cs.isEmpty then some [] else none
  | [k], cs => if cs.length = k then cs.mapM hexDigit? else none
  | k :: ks, cs =>
    match cs.drop k with
    | '-' :: rest => do
      let ds ← (cs.take k).mapM hexDigit?
      return ds ++ (← readGroups ks rest)
    | _ => none

def hyphenated? (cs : List Char) : Option Uuid := readGroups groups cs >>= ofDigits?

def simple? (cs : List Char) : Option Uuid := cs.mapM hexDigit? >>= ofDigits?

/-- The characters that may stand before a hyphenated form. -/
def urnMark : List Char := ['u', 'r', 'n', ':', 'u', 'u', 'i', 'd', ':']

def afterUrnMark? (cs : List Char) : Option (List Char) :=
  if (cs.take 9).map Char.toLower = urnMark then some (cs.drop 9) else none

def insideBraces? : List Char → Option (List Char)
  | '{' :: rest => if rest.getLast? = some '}' then some rest.dropLast else none
  | _ => none

/-- The number of bytes of the UTF-8 form. -/
def byteLength : List Char → Nat
  | [] => 0
  | c :: cs => c.utf8Size + byteLength cs

/-- The text inside a wrapper, if it has the length of a hyphenated form. -/
def unwrapped? (cs : List Char) : Option (List Char) :=
  match (insideBraces? cs).or (afterUrnMark? cs) with
  | some inner => if byteLength inner = 36 then some inner else none
  | none => none

/-- Why a text is no identifier. -/
inductive ParseError where
  | length (found : Nat)
  | character (found : Char) (index : Nat)
  | groupCount (found : Nat)
  | groupLength (group expected found : Nat)
  deriving DecidableEq

def ParseError.message : ParseError → String
  | .length n => "invalid length: found " ++ Text.showNat n
  | .character c i =>
    "invalid character: found `" ++ String.singleton c ++ "` at " ++ Text.showNat i
  | .groupCount n => "invalid group count: expected 5, found " ++ Text.showNat n
  | .groupLength g k n => "invalid group length in group " ++ Text.showNat g ++ ": expected " ++
      Text.showNat k ++ ", found " ++ Text.showNat n

def isFormChar (c : Char) : Bool := c == '-' || (hexDigit? c).isSome

/-- The positions of the hyphens. -/
def hyphens (cs : List Char) : List Nat :=
  cs.zipIdx.filterMap fun p => if p.1 = '-' then some p.2 else none

/-- The first of the four hyphen positions that is out of place; if none is, the last group is at
fault. The number `n` is the length of the whole text. -/
def misplaced (n : Nat) : List Nat → ParseError
  | [a, b, c, d] =>
    if a ≠ 8 then .groupLength 0 8 a
    else if b ≠ 13 then .groupLength 1 4 (b - 9)
    else if c ≠ 18 then .groupLength 2 4 (c - 14)
    else if d ≠ 23 then .groupLength 3 4 (d - 19)
    else .groupLength 4 12 (n - 24)
  | hs => .groupCount (hs.length + 1)

/-- What is wrong with the body of a text of `n` bytes, which starts at the given offset in it. A
body that is not `grouped` may do without hyphens. -/
def bodyFault (grouped : Bool) (n offset : Nat) (body : List Char) : ParseError :=
  match body.zipIdx.find? fun p => !isFormChar p.1 with
  | some (c, i) => .character c (i + offset)
  | none => if (hyphens body).isEmpty && !grouped then .length n else misplaced n (hyphens body)

/-- What is wrong with a text that is no identifier. A text as long as a hyphenated form is taken
for one as it stands; of any other a wrapper is set aside. -/
def diagnose (cs : List Char) : ParseError :=
  let n := byteLength cs
  if n = 0 ∨ 45 < n then .length n
  else if n = 36 then bodyFault true n 0 cs
  else
    match insideBraces? cs, afterUrnMark? cs with
    | some inner, _ => bodyFault true n 1 inner
    | none, some inner => bodyFault true n 9 inner
    | none, none => bodyFault false n 0 cs

def parse (cs : List Char) : Except ParseError Uuid :=
  match simple? cs with
  | some u => .ok u
  | none =>
    let body := (unwrapped? cs).getD cs
    (hyphenated? body).elim (.error (diagnose body)) .ok

/-! ## Reading inverts writing -/

theorem hexDigit?_hexChar (d : Fin 16) : hexDigit? (hexChar d) = some d := by
  revert d; decide

theorem mapM_hexDigit?_map (ds : List (Fin 16)) : (ds.map hexChar).mapM hexDigit? = some ds := by
  induction ds with
  | nil => rfl
  | cons d ds ih => simp [List.mapM_cons, hexDigit?_hexChar, ih]

end Uuid

end Stockroom
