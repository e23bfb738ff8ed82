import Stockroom.Time.Timestamp

/-! Shifts into the future. A span of at least a second leads out of a leap second, so the point it
leads to is found as if there were none, and lies strictly later; a year before the end of the
calendar there is such a point for every span of up to 365 days. -/
namespace Stockroom.Timestamp
set_option autoImplicit false

/-- The nanoseconds up to a point. Those of a leap second count as those of the second before it. -/
def count (t : Timestamp) : Int := (t.day * 86400 + t.second) * 1000000000 + t.nano % 1000000000

/-- At least 365 days before the end of the calendar. -/
def IsTimely (t : Timestamp) : Prop := t.day + 365 ≤ Calendar.lastDay

instance (t : Timestamp) : Decidable t.IsTimely :=
  inferInstanceAs (Decidable (t.day + 365 ≤ Calendar.lastDay))

variable {now t : Timestamp} {nanos : Nat}

theorem make?_eq_some {day : Int} {second nano : Nat}
    (h : Calendar.firstDay ≤ day ∧ day ≤ Calendar.lastDay) (hs : second < 86400)
    (hn : nano < 1000000000) :
    ∃ t, make? day second nano = some t ∧ t.day = day ∧ t.second = second ∧ t.nano = nano := by
  have bounds : Calendar.firstDay ≤ day ∧ day ≤ Calendar.lastDay ∧
      second < 86400 ∧ nano < 2000000000 ∧ (1000000000 ≤ nano → second % 60 = 59) :=
    ⟨h.1, h.2, hs, by omega, by omega⟩
  exact ⟨_, dif_pos bounds, rfl, rfl, rfl⟩

/-- A shift by a second or more begins at the start of a leap second, should there be one. -/
theorem shift?_eq_make? (h : 1000000000 ≤ nanos) : now.shift? nanos =
    let carried : Int := now.nano % 1000000000 + nanos % 1000000000
    let total : Int := now.second + nanos / 1000000000 + carried / 1000000000
    make? (now.day + total / 86400) (total % 86400).toNat (carried % 1000000000).toNat := by
  have s1 := now.nano_lt
  have secs : (nanos : Int).tdiv 1000000000 = nanos / 1000000000 :=
    Int.tdiv_eq_ediv_of_nonneg (Int.natCast_nonneg _)
  have rest : (nanos : Int).tmod 1000000000 = nanos % 1000000000 :=
    Int.tmod_eq_emod_of_nonneg (Int.natCast_nonneg _)
  have forward : (0 : Int) < nanos / 1000000000 := by omega
  have not_back : ¬(nanos : Int) / 1000000000 < 0 := by omega
  unfold shift?
  simp only [secs, rest, forward, not_back, true_or, not_true_eq_false,
    false_and, and_false, if_false]
  by_cases leap : 1000000000 ≤ now.nano
  · have start : (now.nano : Int) - 1000000000 = now.nano % 1000000000 := by omega
    simp only [if_pos leap, start]
  · have plain : (now.nano : Int) = now.nano % 1000000000 := by omega
    simp only [if_neg leap, ← plain]

theorem not_le_of_seconds_lt
    (h : now.day * 86400 + now.second < t.day * 86400 + t.second) : ¬t ≤ now := by
  have s1 := now.second_lt
  have s2 := t.second_lt
  show ¬le t now = true
  simp only [le, Bool.or_eq_true, Bool.and_eq_true, decide_eq_true_eq, beq_iff_eq]
  omega

theorem IsTimely.shift? (ht : now.IsTimely) (h1 : 1000000000 ≤ nanos)
    (h2 : nanos ≤ 31536000000000000) :
    ∃ t, now.shift? nanos = some t ∧ t.count = now.count + nanos ∧ ¬t ≤ now := by
  have s1 := now.day_ge
  have s2 := now.second_lt
  have s3 : now.day + 365 ≤ Calendar.lastDay := ht
  rw [shift?_eq_make? h1]
  dsimp only
  generalize hc : (now.nano : Int) % 1000000000 + nanos % 1000000000 = carried
  generalize htotal : (now.second : Int) + nanos / 1000000000 + carried / 1000000000 = total
  obtain ⟨t, made, day, second, nano⟩ : ∃ t, make? (now.day + total / 86400) (total % 86400).toNat
      (carried % 1000000000).toNat = some t ∧ _ := make?_eq_some (by omega) (by omega) (by omega)
  refine ⟨t, made, ?_, not_le_of_seconds_lt ?_⟩
  · rw [count, count, day, second, nano]
    omega
  · rw [day, second]
    omega

end Stockroom.Timestamp
