/-! The Gregorian calendar, extended to all years. Day 0 is the first of January of the year 1. A
day is a year, a month and a day of the month, or one number; `dayNumber?` and `Date.ofDayNumber`
lead from one to the other. -/
namespace Stockroom.Calendar
set_option autoImplicit false

def isLeap (year : Int) : Bool := year % 4 == 0 && (year % 100 != 0 || year % 400 == 0)

def monthLengths (leap : Bool) : List Nat :=
  [31, if leap then 29 else 28, 31, 30, 31, 30, 31, 31, 30, 31, 30, 31]

/-- The number of the first of January. -/
def yearStart (year : Int) : Int :=
  365 * (year - 1) + (year - 1) / 4 - (year - 1) / 100 + (year - 1) / 400

structure Date where
  year : Int
  month : Nat
  day : Nat
  deriving DecidableEq

/-- Months count from 1 to 12, days from 1 to the length of the month. -/
def Date.isValid (d : Date) : Bool :=
  1 ≤ d.month && d.month ≤ 12 && 1 ≤ d.day &&
    d.day ≤ (monthLengths (isLeap d.year)).getD (d.month - 1) 0

/-- The days of the first so many months. -/
def daysBefore : Nat → List Nat → Nat
  | months + 1, length :: rest => length + daysBefore months rest
  | _, _ => 0

def Date.dayNumber (d : Date) : Int :=
  yearStart d.year + daysBefore (d.month - 1) (monthLengths (isLeap d.year)) + (d.day - 1 : Nat)

def Date.dayNumber? (d : Date) : Option Int := if d.isValid then some d.dayNumber else none

/-- Month and day of the month for a day counted from the start of the year. -/
def monthAndDay (month : Nat) : List Nat → Nat → Nat × Nat
  | [], n => (month, n + 1)
  | length :: rest, n =>
    if n < length then (month, n + 1) else monthAndDay (month + 1) rest (n - length)

/-- The year of a day and the day counted from the start of the year. Four hundred years have 146097
days, a century 36524, four years 1461 and a year 365, but the last of each may have one more. -/
def yearAndDay (n : Int) : Int × Nat :=
  let cycle := n / 146097
  let r := (n % 146097).toNat
  let century := min (r / 36524) 3
  let r := r - 36524 * century
  let four := r / 1461
  let r := r % 1461
  let one := min (r / 365) 3
  (400 * cycle + 100 * century + 4 * four + one + 1, r - 365 * one)

def Date.ofDayNumber (n : Int) : Date :=
  let (year, day) := yearAndDay n
  let (month, day) := monthAndDay 1 (monthLengths (isLeap year)) day
  ⟨year, month, day⟩

/-! ## Days of a year -/

theorem monthAndDay_of_lt (month length n : Nat) (rest : List Nat) (h : n < length) :
    monthAndDay month (length :: rest) n = (month, n + 1) := by
  simp [monthAndDay, h]

theorem monthAndDay_of_le (month length n : Nat) (rest : List Nat) (h : length ≤ n) :
    monthAndDay month (length :: rest) n = monthAndDay (month + 1) rest (n - length) := by
  simp [monthAndDay, Nat.not_lt.2 h]

theorem yearStart_parts (cycle : Int) (century four one : Nat) (h1 : century ≤ 3) (h2 : four ≤ 24)
    (h3 : one ≤ 3) : yearStart (400 * cycle + 100 * century + 4 * four + one + 1) =
      146097 * cycle + 36524 * century + 1461 * four + 365 * one := by
  have s1 : (400 * cycle + 100 * century + 4 * four + one + 1 - 1) / 4 =
      100 * cycle + 25 * century + four := by
    omega
  have s2 : (400 * cycle + 100 * century + 4 * four + one + 1 - 1) / 100 = 4 * cycle + century := by
    omega
  have s3 : (400 * cycle + 100 * century + 4 * four + one + 1 - 1) / 400 = cycle := by omega
  rw [yearStart, s1, s2, s3]
  omega

/-- A day is the start of its year and the day counted from there. -/
theorem yearStart_yearAndDay (n : Int) : yearStart (yearAndDay n).1 + (yearAndDay n).2 = n := by
  have s1 : (n % 146097).toNat < 146097 := by omega
  have s2 : n = 146097 * (n / 146097) + (n % 146097).toNat := by omega
  simp only [yearAndDay]
  generalize (n % 146097).toNat = r at s1 s2
  have s3 : min (r / 36524) 3 ≤ 3 := Nat.min_le_right _ _
  have s4 : r - 36524 * min (r / 36524) 3 < 36525 := by omega
  have s5 : 36524 * min (r / 36524) 3 ≤ r := by omega
  generalize min (r / 36524) 3 = century at s3 s4 s5
  have s6 : (r - 36524 * century) / 1461 ≤ 24 := by omega
  have s7 : 1461 * ((r - 36524 * century) / 1461) +
      (r - 36524 * century) % 1461 = r - 36524 * century :=
    Nat.div_add_mod _ _
  generalize (r - 36524 * century) / 1461 = four at s6 s7
  generalize (r - 36524 * century) % 1461 = rest at s7
  have s8 : min (rest / 365) 3 ≤ 3 := Nat.min_le_right _ _
  have s9 : 365 * min (rest / 365) 3 ≤ rest := by omega
  rw [yearStart_parts _ _ _ _ s3 s6 s8]
  omega

end Stockroom.Calendar
