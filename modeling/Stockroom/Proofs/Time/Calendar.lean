import Mathlib.Algebra.GroupWithZero.Nat
import Stockroom.Time.Calendar

/-! Every day number has a date in the calendar, and leads back from it. -/
namespace Stockroom.Calendar
set_option autoImplicit false

/-! ## Months -/

/-- A day among months: month and day of the month are in range and make up the day. -/
theorem monthAndDay_bounds {lengths : List Nat} {n : Nat} (month : Nat) (h : n < lengths.sum) :
    ∃ k day, monthAndDay month lengths n = (month + k, day) ∧ k < lengths.length ∧ 1 ≤ day ∧
      day ≤ lengths.getD k 0 ∧ daysBefore k lengths + (day - 1) = n := by
  induction lengths generalizing month n with
  | nil => cases h
  | cons length rest ih =>
    by_cases hn : n < length
    · refine ⟨0, n + 1, monthAndDay_of_lt month length n rest hn,
        Nat.succ_pos _, Nat.succ_pos n, hn, ?_⟩
      rw [daysBefore] <;> simp
    · have hr : n - length < rest.sum := by
        rw [List.sum_cons] at h
        omega
      obtain ⟨k, day, h1, h2, h3, h4, h5⟩ := ih (month + 1) hr
      refine ⟨k + 1, day, ?_, Nat.succ_lt_succ h2, h3, h4, ?_⟩
      · rw [monthAndDay_of_le month length n rest (Nat.le_of_not_lt hn), h1,
          Nat.add_assoc, Nat.add_comm 1 k]
      · rw [daysBefore]
        omega

/-! ## Years -/

theorem isLeap_eq_true_iff (year : Int) :
    isLeap year = true ↔ year % 4 = 0 ∧ (year % 100 ≠ 0 ∨ year % 400 = 0) := by
  simp [isLeap]

theorem sum_monthLengths (year : Int) :
    (monthLengths (isLeap year)).sum = if isLeap year = true then 366 else 365 := by
  unfold monthLengths
  cases isLeap year <;> rfl

/-- Only a leap year has a day 365, counted from zero. -/
theorem isLeap_of_yearAndDay (n : Int) :
    (yearAndDay n).2 ≤ 365 ∧ ((yearAndDay n).2 = 365 → isLeap (yearAndDay n).1 = true) := by
  rw [isLeap_eq_true_iff]
  have s1 : (n % 146097).toNat < 146097 := by omega
  simp only [yearAndDay]
  generalize n / 146097 = cycle
  generalize (n % 146097).toNat = r at s1
  have s2 : min (r / 36524) 3 ≤ 3 := Nat.min_le_right _ _
  have s3 : min (r / 36524) 3 = 3 ∨ r - 36524 * min (r / 36524) 3 < 36524 := by omega
  have s4 : r - 36524 * min (r / 36524) 3 < 36525 := by omega
  generalize min (r / 36524) 3 = century at s2 s3 s4
  generalize r - 36524 * century = r at s3 s4
  have s5 : r / 1461 ≤ 24 := by omega
  have s6 : r % 1461 < 1461 := Nat.mod_lt _ (by decide)
  have s7 : r / 1461 = 24 → r % 1461 < 1460 ∨ r = 36524 := by omega
  generalize r / 1461 = four at s5 s7
  generalize r % 1461 = rest at s6 s7
  have s8 : min (rest / 365) 3 ≤ 3 := Nat.min_le_right _ _
  have s9 : rest - 365 * min (rest / 365) 3 ≤ 365 := by omega
  have s10 : rest - 365 * min (rest / 365) 3 = 365 → min (rest / 365) 3 = 3 ∧ rest = 1460 := by
    omega
  generalize min (rest / 365) 3 = one at s8 s9 s10
  refine ⟨s9, fun h => ?_⟩
  obtain ⟨h1, h2⟩ := s10 h
  omega

/-- The day of the year is one that the year has. -/
theorem yearAndDay_lt (n : Int) :
    (yearAndDay n).2 < (monthLengths (isLeap (yearAndDay n).1)).sum := by
  obtain ⟨h1, h2⟩ := isLeap_of_yearAndDay n
  rw [sum_monthLengths]
  split
  · omega
  · rename_i hl
    have hne : (yearAndDay n).2 ≠ 365 := fun e => hl (h2 e)
    omega

/-! ## Dates -/

theorem dayNumber?_ofDayNumber (n : Int) : (Date.ofDayNumber n).dayNumber? = some n := by
  obtain ⟨k, day, h1, h2, h3, h4, h5⟩ := monthAndDay_bounds 1 (yearAndDay_lt n)
  have hd : Date.ofDayNumber n = ⟨(yearAndDay n).1, 1 + k, day⟩ := by
    simp only [Date.ofDayNumber, h1]
  have hk : k < 12 := h2
  have hv : (⟨(yearAndDay n).1, 1 + k, day⟩ : Date).isValid = true := by
    simp only [Date.isValid, Bool.and_eq_true, decide_eq_true_eq, Nat.add_sub_cancel_left]
    exact ⟨⟨⟨by omega, by omega⟩, h3⟩, h4⟩
  rw [hd, Date.dayNumber?, if_pos hv, Date.dayNumber]
  dsimp only
  rw [Nat.add_sub_cancel_left, Int.add_assoc, ← Int.natCast_add, h5, yearStart_yearAndDay]

end Stockroom.Calendar
