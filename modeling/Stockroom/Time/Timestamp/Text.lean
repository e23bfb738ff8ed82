import Stockroom.Numeric.Power
import Stockroom.Text.Blank
import Stockroom.Text.Digits
import Stockroom.Time.Timestamp

/-! The text form of points in time: `2024-01-01T00:00:00.5Z`. It is written in universal time, with
no fraction or with three, six or nine fraction digits, whichever are the fewest that are exact, and
with a sign before years that have not four digits. Reading takes any offset below a day, drops
fraction digits after the ninth, and allows blanks between the parts. -/
namespace Stockroom.Timestamp
set_option autoImplicit false

/-! ## Writing -/

def yearChars (year : Int) : List Char :=
  if 0 ≤ year ∧ year ≤ 9999 then Text.padded 4 year.toNat
  else (if year < 0 then '-' else '+') :: Text.padded 4 year.natAbs

def fractionChars (nano : Nat) : List Char :=
  if nano = 0 then []
  else if nano % 1000000 = 0 then '.' :: Text.padded 3 (nano / 1000000)
  else if nano % 1000 = 0 then '.' :: Text.padded 6 (nano / 1000)
  else '.' :: Text.padded 9 nano

def chars (t : Timestamp) : List Char :=
  let date := Calendar.Date.ofDayNumber t.day
  let leap := if 1000000000 ≤ t.nano then 1 else 0
  yearChars date.year ++ '-' :: Text.padded 2 date.month ++ '-' :: Text.padded 2 date.day ++
    'T' :: Text.padded 2 (t.second / 3600) ++ ':' :: Text.padded 2 (t.second / 60 % 60) ++
    ':' :: Text.padded 2 (t.second % 60 + leap) ++ fractionChars (t.nano % 1000000000) ++ ['Z']

def text (t : Timestamp) : String := String.ofList t.chars

/-! ## Reading -/

/-- A number of one digit up to `width` digits, and what follows it. -/
def readNumber (width : Nat) (cs : List Char) : Option (Nat × List Char) :=
  let ds := (cs.take width).takeWhile Char.isDigit
  (Text.number? ds).map fun n => (n, cs.drop ds.length)

/-- A number behind blanks. -/
def readField (cs : List Char) : Option (Nat × List Char) := readNumber 2 (Text.trimLeft cs)

/-- A year: up to four digits, or any number of them behind a sign. -/
def readYear (cs : List Char) : Option (Int × List Char) :=
  match Text.trimLeft cs with
  | '-' :: rest => (readNumber rest.length rest).map fun p => (-(p.1 : Int), p.2)
  | '+' :: rest => (readNumber rest.length rest).map fun p => ((p.1 : Int), p.2)
  | rest => (readNumber 4 rest).map fun p => ((p.1 : Int), p.2)

/-- A mark behind blanks. -/
def readMark (mark : Char) (cs : List Char) : Option (List Char) :=
  match Text.trimLeft cs with
  | c :: rest => if c = mark then some rest else none
  | [] => none

/-- Nanoseconds: at least one digit after a point, of which nine count. -/
def readFraction : List Char → Option (Nat × List Char)
  | '.' :: rest =>
    let ds := rest.takeWhile Char.isDigit
    (Text.number? (ds.take 9)).map fun n =>
      (n * tenTo (9 - (ds.take 9).length), rest.drop ds.length)
  | cs => some (0, cs)

/-- Two digits. -/
def readTwo : List Char → Option (Nat × List Char)
  | a :: b :: rest => (Text.number? [a, b]).map fun n => (n, rest)
  | _ => none

/-- Hours and minutes of an offset, in seconds. -/
def readOffsetSize (cs : List Char) : Option (Int × List Char) := do
  let (hours, cs) ← readTwo cs
  let (minutes, cs) ← readTwo (cs.dropWhile fun c => c == ':' || Text.isBlank c)
  if minutes < 60 then return ((hours * 3600 + minutes * 60 : Nat), cs) else none

def readOffset : List Char → Option (Int × List Char)
  | 'Z' :: rest => some (0, rest)
  | 'z' :: rest => some (0, rest)
  | '+' :: rest => readOffsetSize rest
  | '-' :: rest => (readOffsetSize rest).map fun p => (-p.1, p.2)
  | '\u2212' :: rest => (readOffsetSize rest).map fun p => (-p.1, p.2)
  | cs => if (cs.take 3).map Char.toUpper = ['U', 'T', 'C'] then some (0, cs.drop 3) else none

/-- The point with the given local date, time of day and offset. -/
def ofLocal? (date : Calendar.Date) (hour minute second nano : Nat)
    (offset : Int) : Option Timestamp := do
  let day ← date.dayNumber?
  if ¬(Calendar.firstDay ≤ day ∧ day ≤ Calendar.lastDay) then none
  else if 24 ≤ hour ∨ 60 ≤ minute ∨ 61 ≤ second ∨ offset ≤ -86400 ∨ 86400 ≤ offset then none
  else
    let leap := if second = 60 then 1 else 0
    let total : Int := (hour * 3600 + minute * 60 + (second - leap) : Nat) - offset
    make? (day + total / 86400) (total % 86400).toNat (nano + leap * 1000000000)

def read (cs : List Char) : Option Timestamp := do
  let (year, cs) ← readYear cs
  let cs ← readMark '-' cs
  let (month, cs) ← readField cs
  let cs ← readMark '-' cs
  let (day, cs) ← readField cs
  match cs with
  | [] => none
  | c :: cs =>
    if c ≠ 'T' ∧ c ≠ 't' ∧ c ≠ ' ' then none
    else do
      let (hour, cs) ← readField cs
      let cs ← readMark ':' cs
      let (minute, cs) ← readField cs
      let cs ← readMark ':' cs
      let (second, cs) ← readField cs
      let (nano, cs) ← readFraction cs
      let (offset, cs) ← readOffset (Text.trimLeft cs)
      if (Text.trimLeft cs).isEmpty then ofLocal? ⟨year, month, day⟩ hour minute second nano offset
      else none

def parse? (s : String) : Option Timestamp := read s.toList

end Stockroom.Timestamp
