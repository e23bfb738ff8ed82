import Stockroom.Time.Calendar
import Stockroom.Time.Duration

/-! Points in time, in universal time with nanoseconds, from the year -262143 to the year 262142.
The last second of a minute may be a leap second: its nanoseconds then run on from one to two
thousand million. Points are ordered by day, second and nanosecond. -/
namespace Stockroom
set_option autoImplicit false

/-- The numbers of the first and the last day of the calendar's range. -/
def Calendar.firstDay : Int := Calendar.Date.dayNumber ⟨-262143, 1, 1⟩

def Calendar.lastDay : Int := Calendar.Date.dayNumber ⟨262142, 12, 31⟩

structure Timestamp where
  day : Int
  second : Nat
  nano : Nat
  day_ge : Calendar.firstDay ≤ day
  day_le : day ≤ Calendar.lastDay
  second_lt : second < 86400
  nano_lt : nano < 2000000000
  leap_last : 1000000000 ≤ nano → second % 60 = 59
  deriving DecidableEq

namespace Timestamp

def make? (day : Int) (second nano : Nat) : Option Timestamp :=
  if h : Calendar.firstDay ≤ day ∧ day ≤ Calendar.lastDay ∧ second < 86400 ∧ nano < 2000000000 ∧
      (1000000000 ≤ nano → second % 60 = 59) then
    some ⟨day, second, nano, h.1, h.2.1, h.2.2.1, h.2.2.2.1, h.2.2.2.2⟩
  else none

/-- Whether `a` comes before `b` or is the same point. -/
def le (a b : Timestamp) : Bool :=
  a.day < b.day || a.day == b.day &&
    (a.second < b.second || a.second == b.second && a.nano ≤ b.nano)

instance : LE Timestamp := ⟨fun a b => le a b = true⟩

instance (a b : Timestamp) : Decidable (a ≤ b) := inferInstanceAs (Decidable (le a b = true))

/-- The point a number of nanoseconds later (or earlier, if negative). From inside a leap second a
shift that leaves it counts from the second's start as any other second. -/
def shift? (t : Timestamp) (nanos : Int) : Option Timestamp :=
  let secs := nanos.tdiv (1000000000)
  let rest := nanos.tmod (1000000000)
  let nano : Int := t.nano
  if 1000000000 ≤ t.nano ∧ ¬(0 < secs ∨ (0 < rest ∧ 2000000000 - rest ≤ nano)) ∧ ¬secs < 0 then
    make? t.day t.second (nano + rest).toNat
  else
    let (second, nano) : Int × Int :=
      if 1000000000 ≤ t.nano then
        (if secs < 0 then (t.second + 1, nano - 1000000000) else (t.second, nano - 1000000000))
      else (t.second, nano)
    let total := second + secs + (nano + rest) / 1000000000
    make? (t.day + total / 86400) (total % 86400).toNat ((nano + rest) % 1000000000).toNat

/-- The longest span that can be added: as many milliseconds as a signed 64-bit number counts. -/
def longestShift : Nat := 9223372036854775807000000

/-! ## Order -/

theorem le_refl (a : Timestamp) : a ≤ a := by
  show le a a = true
  simp [le]

theorem le_total (a b : Timestamp) : a ≤ b ∨ b ≤ a := by
  show le a b = true ∨ le b a = true
  simp only [le, Bool.or_eq_true, Bool.and_eq_true, decide_eq_true_eq, beq_iff_eq]
  omega

theorem le_trans {a b c : Timestamp} (h1 : a ≤ b) (h2 : b ≤ c) : a ≤ c := by
  have s1 : le a b = true := h1
  have s2 : le b c = true := h2
  show le a c = true
  simp only [le, Bool.or_eq_true, Bool.and_eq_true, decide_eq_true_eq, beq_iff_eq] at *
  omega

theorem le_antisymm {a b : Timestamp} (h1 : a ≤ b) (h2 : b ≤ a) : a = b := by
  have s1 : le a b = true := h1
  have s2 : le b a = true := h2
  simp only [le, Bool.or_eq_true, Bool.and_eq_true, decide_eq_true_eq, beq_iff_eq] at s1 s2
  cases a
  cases b
  simp only at s1 s2
  simp only [mk.injEq]
  omega

theorem not_le_iff {a b : Timestamp} : ¬a ≤ b ↔ b ≤ a ∧ b ≠ a := by
  constructor
  · intro h
    refine ⟨(le_total a b).resolve_left h, ?_⟩
    rintro rfl
    exact h (le_refl b)
  · rintro ⟨h1, h2⟩ h
    exact h2 (le_antisymm h1 h)

end Timestamp

end Stockroom
