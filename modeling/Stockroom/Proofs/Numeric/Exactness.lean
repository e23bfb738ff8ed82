import Mathlib.Algebra.Order.Field.Basic
import Mathlib.Tactic.FieldSimp
import Mathlib.Tactic.Linarith
import Mathlib.Tactic.Positivity
import Mathlib.Tactic.Ring
import Stockroom.Proofs.Numeric.Product

/-! Which products are exact. A product gives up places only for want of room in its magnitude, and
no more of them than it must. So it is rounded once, to the last place that it keeps, and the digits
it loses are all zeros just if there is a decimal that is the product. -/
namespace Stockroom
set_option autoImplicit false

/-! ## Rounded quotients -/

variable {n d q : Nat}

theorem roundDiv_mul (tie : Tie) (q : Nat) (h : 0 < d) : roundDiv tie (d * q) d = q := by
  unfold roundDiv
  rw [Nat.mul_mod_right, if_pos (by omega), Nat.mul_div_cancel_left q h]

theorem roundDiv_toEven_mod_two (h : 2 * n = 2 * (d * roundDiv .toEven n d) + d ∨
    2 * n + d = 2 * (d * roundDiv .toEven n d)) (hd : 0 < d) : roundDiv .toEven n d % 2 = 0 := by
  have s1 := Nat.div_add_mod n d
  have s2 := Nat.mod_lt n hd
  unfold roundDiv at h ⊢
  split at h
  · omega
  · split at h
    · rw [Nat.mul_add] at h
      omega
    · rename_i below above
      rw [if_neg below, if_neg above, Tie.choose]
      split <;> omega

/-- Rounded, a quotient is below an even bound just if it lacks more than half a unit of it. -/
theorem roundDiv_toEven_lt_iff {bound : Nat} (hd : 0 < d) (hb : 0 < bound) (even : bound % 2 = 0) :
    roundDiv .toEven n d < bound ↔ 2 * n < (2 * bound - 1) * d := by
  obtain ⟨above, below⟩ := roundDiv_error .toEven n d hd
  have tie := @roundDiv_toEven_mod_two n d
  generalize roundDiv .toEven n d = v at above below tie ⊢
  have room : (2 * bound - 1) * d + d = 2 * (d * bound) := by
    rw [← Nat.succ_mul, Nat.succ_eq_add_one, Nat.sub_add_cancel (by omega),
      Nat.mul_assoc, Nat.mul_comm bound]
  constructor
  · intro h
    have s1 : d * v + d ≤ d * bound := Nat.mul_le_mul_left d (Nat.succ_le_of_lt h)
    rcases Nat.lt_or_ge (v + 1) bound with less | most
    · have s2 : d * (v + 1) + d ≤ d * bound := Nat.mul_le_mul_left d (Nat.succ_le_of_lt less)
      rw [Nat.mul_add] at s2
      omega
    · -- the odd neighbour of the bound is never where half a unit goes
      by_contra no
      have s2 : d * bound = d * v + d := by
        rw [show bound = v + 1 by omega, Nat.mul_add, Nat.mul_one]
      have s3 := tie (.inl (by omega)) hd
      omega
  · intro h
    by_contra no
    have s1 : d * bound ≤ d * v := Nat.mul_le_mul_left d (Nat.le_of_not_lt no)
    omega

namespace Decimal

theorem fitsWithout_iff_lt {k : Nat} :
    fitsWithout n k = true ↔ 2 * n < (2 * magnitudeBound - 1) * tenTo k := by
  rw [fitsWithout_iff]
  exact roundDiv_toEven_lt_iff (tenTo_pos k) (by decide) (by decide)

/-! ## Room for a number -/

/-- Half a unit of the last place. -/
def halfUnit (d : Decimal) : Rat := 1 / (2 * tenTo d.scale)

/-- With so many places there is no room in a magnitude for a number, once it is rounded. -/
def Overflows (x : Rat) (places : Nat) : Prop := (magnitudeBound : Rat) - 1 / 2 ≤ |x| * tenTo places

def IsRepresentable (x : Rat) : Prop := ∃ d : Decimal, d.value = x

/-- A number rounded to a decimal, a half to the even neighbour, at as many places as there is
room for, up to a limit. -/
structure Rounds (x : Rat) (limit : Nat) (d : Decimal) : Prop where
  scale_le : d.scale ≤ limit
  near : |d.value - x| ≤ d.halfUnit
  tie : |d.value - x| = d.halfUnit → d.magnitude % 2 = 0
  full : x ≠ 0 → ∀ places, d.scale < places → places ≤ limit → Overflows x places

variable {cost d : Decimal} {k : Nat} {x : Int}

theorem abs_value (d : Decimal) : |d.value| = d.magnitude / tenTo d.scale := by
  rw [value, abs_div, abs_of_pos (cast_tenTo_pos d.scale), ← natAbs_coefficient,
    Nat.cast_natAbs, Int.cast_abs]

theorem abs_value_mul (cost : Decimal) (x : Int) :
    |cost.value * x| = (cost.magnitude * x.natAbs : Nat) / tenTo cost.scale := by
  rw [abs_mul, abs_value, Nat.cast_mul, Nat.cast_natAbs, Int.cast_abs, div_mul_eq_mul_div]

theorem overflows_iff (hk : k ≤ cost.scale) : Overflows (cost.value * x) (cost.scale - k) ↔
    fitsWithout (cost.magnitude * x.natAbs) k = false := by
  have s1 : (tenTo cost.scale : Rat) = tenTo (cost.scale - k) * tenTo k := by
    rw [← Nat.cast_mul, ← tenTo_add, Nat.sub_add_cancel hk]
  have s2 := cast_tenTo_pos k
  have s3 := cast_tenTo_pos (cost.scale - k)
  have s4 : |cost.value * x| * tenTo (cost.scale - k) =
      (cost.magnitude * x.natAbs : Nat) / tenTo k := by
    rw [abs_value_mul, s1]
    field_simp
  rw [Bool.eq_false_iff, ne_eq, fitsWithout_iff_lt, Nat.not_lt, Overflows, s4, le_div_iff₀ s2,
    ← Nat.cast_le (α := Rat)]
  have s5 : ((2 * magnitudeBound - 1 : Nat) : Rat) = 2 * magnitudeBound - 1 := by
    rw [Nat.cast_sub (by decide)]
    push_cast
    rfl
  rw [Nat.cast_mul (2 * magnitudeBound - 1), s5]
  push_cast
  constructor <;> intro h <;> linarith

/-! ## Rounded products -/

theorem coefficient_mul (h : d.isNegative = (cost.isNegative != decide (x < 0))) :
    ∃ sign : Int, |sign| = 1 ∧ d.coefficient = sign * d.magnitude ∧
      cost.coefficient * x = sign * (cost.magnitude * x.natAbs : Nat) := by
  rcases lt_or_ge x 0 with hx | hx
  · have s1 : (x.natAbs : Int) = -x := by omega
    rw [decide_eq_true hx] at h
    cases hc : cost.isNegative with
    | false => exact ⟨-1, rfl, by simp [coefficient, h, hc], by simp [coefficient, hc, s1]⟩
    | true => exact ⟨1, rfl, by simp [coefficient, h, hc], by simp [coefficient, hc, s1]⟩
  · have s1 : (x.natAbs : Int) = x := by omega
    rw [decide_eq_false (by omega)] at h
    cases hc : cost.isNegative with
    | false => exact ⟨1, rfl, by simp [coefficient, h, hc], by simp [coefficient, hc, s1]⟩
    | true => exact ⟨-1, rfl, by simp [coefficient, h, hc], by simp [coefficient, hc, s1]⟩

/-- How far a product is from the exact one is the rest of its magnitude, in places of the cost. -/
theorem abs_value_sub (hs : d.isNegative = (cost.isNegative != decide (x < 0)))
    (hk : d.scale + k = cost.scale) :
    |d.value - cost.value * x| =
      (((tenTo k * d.magnitude : Nat) : Int) - (cost.magnitude * x.natAbs : Nat)).natAbs /
        (tenTo d.scale * tenTo k) := by
  obtain ⟨sign, one, s1, s2⟩ := coefficient_mul hs
  have s3 := cast_tenTo_pos k
  have s4 := cast_tenTo_pos d.scale
  have exact : cost.value * x =
      sign * (cost.magnitude * x.natAbs : Nat) / (tenTo d.scale * tenTo k) := by
    rw [value, ← hk, tenTo_add, Nat.cast_mul, div_mul_eq_mul_div, ← Int.cast_mul, s2,
      Int.cast_mul, Int.cast_natCast]
  have kept : d.value = sign * (tenTo k * d.magnitude : Nat) / (tenTo d.scale * tenTo k) := by
    rw [value, s1, div_eq_div_iff (by positivity) (by positivity)]
    push_cast
    ring
  have unit : |(sign : Rat)| = 1 := by exact_mod_cast one
  rw [exact, kept, ← sub_div, ← mul_sub, abs_div, abs_mul, unit, one_mul,
    abs_of_pos (mul_pos s4 s3)]
  rw [Nat.cast_natAbs, Int.cast_abs, Int.cast_sub, Int.cast_natCast, Int.cast_natCast]

/-- What a product of numbers other than zero gives up. -/
structure GivesUp (cost : Decimal) (x : Int) (k : Nat) (d : Decimal) : Prop where
  isNegative : d.isNegative = (cost.isNegative != decide (x < 0))
  scale : d.scale + k = cost.scale
  magnitude : d.magnitude = roundDiv .toEven (cost.magnitude * x.natAbs) (tenTo k)
  fits : fitsWithout (cost.magnitude * x.natAbs) k = true
  needed : ∀ j < k, fitsWithout (cost.magnitude * x.natAbs) j = false

theorem exists_givesUp (h : cost.timesInt? x = some d) (hz : ¬(cost.magnitude = 0 ∨ x = 0)) :
    ∃ k, GivesUp cost x k d := by
  rw [timesInt?_eq_some_iff, if_neg hz] at h
  obtain ⟨k, hk, fits, needed, e⟩ := fit?_eq_some_iff.1 h.2
  obtain ⟨hm, hs⟩ := Prod.mk.inj e
  exact ⟨k, h.1, by omega, hm, fits, needed⟩

theorem value_mul_eq_zero (hz : cost.magnitude = 0 ∨ x = 0) : cost.value * x = 0 := by
  rcases hz with hm | rfl
  · have s1 : cost.coefficient = 0 := by rw [← Int.natAbs_eq_zero, natAbs_coefficient, hm]
    rw [value, s1, Int.cast_zero, zero_div, zero_mul]
  · rw [Int.cast_zero, mul_zero]

theorem rounds_zero (limit : Nat) : Rounds 0 limit zero where
  scale_le := Nat.zero_le limit
  near := by
    rw [value_zero, sub_zero, abs_zero]
    exact div_nonneg zero_le_one (by positivity)
  tie _ := rfl
  full h := absurd rfl h

theorem GivesUp.rounds (h : GivesUp cost x k d) : Rounds (cost.value * x) cost.scale d := by
  have positive := tenTo_pos k
  have distance := abs_value_sub h.isNegative h.scale
  generalize hr : Int.natAbs _ = rest at distance
  have near := roundDiv_error .toEven (cost.magnitude * x.natAbs) (tenTo k) positive
  have even := @roundDiv_toEven_mod_two (cost.magnitude * x.natAbs) (tenTo k)
  rw [← h.magnitude] at near even
  have s1 := cast_tenTo_pos k
  have s2 := cast_tenTo_pos d.scale
  have half : d.halfUnit = tenTo k / 2 / (tenTo d.scale * tenTo k) := by
    rw [halfUnit]
    field_simp
  refine ⟨by have := h.scale; omega, ?_, fun tie => ?_, fun _ places above le => ?_⟩
  · rw [distance, half, div_le_div_iff_of_pos_right (by positivity), le_div_iff₀ two_pos]
    have s3 : rest * 2 ≤ tenTo k := by omega
    exact_mod_cast s3
  · rw [distance, half, div_left_inj' (by positivity), eq_div_iff two_ne_zero] at tie
    have s3 : rest * 2 = tenTo k := by exact_mod_cast tie
    exact even (by omega) positive
  · have s3 := h.scale
    have s4 : places = cost.scale - (cost.scale - places) := by omega
    rw [s4, overflows_iff (Nat.sub_le ..)]
    exact h.needed _ (by omega)

/-- If some decimal is the product, then the places given up are all zeros. -/
theorem GivesUp.tenTo_dvd (h : GivesUp cost x k d) {e : Decimal} (he : e.value = cost.value * x) :
    tenTo k ∣ cost.magnitude * x.natAbs := by
  have same : cost.magnitude * x.natAbs * tenTo e.scale = e.magnitude * tenTo cost.scale := by
    have s1 : (e.magnitude : Rat) / tenTo e.scale =
        (cost.magnitude * x.natAbs : Nat) / tenTo cost.scale := by
      rw [← abs_value, he, abs_value_mul]
    rw [div_eq_div_iff (cast_tenTo_pos _).ne' (cast_tenTo_pos _).ne'] at s1
    exact_mod_cast s1.symm
  have needed := h.needed
  generalize cost.magnitude * x.natAbs = n at same needed ⊢
  cases k with
  | zero => exact Nat.one_dvd n
  | succ j =>
    have large : magnitudeBound ≤ n := by
      have s1 := needed 0 (Nat.succ_pos j)
      rw [Bool.eq_false_iff, ne_eq, fitsWithout_iff_lt, tenTo_zero, Nat.mul_one, Nat.not_lt] at s1
      omega
    have fewer : e.scale < cost.scale := by
      by_contra no
      obtain ⟨i, hi⟩ := Nat.exists_eq_add_of_le (Nat.le_of_not_lt no)
      have s1 : tenTo cost.scale ≤ tenTo e.scale := by
        rw [hi, tenTo_add]
        exact Nat.le_mul_of_pos_right _ (tenTo_pos i)
      have s2 : e.magnitude * tenTo cost.scale < n * tenTo e.scale :=
        Nat.mul_lt_mul_of_lt_of_le (Nat.lt_of_lt_of_le e.magnitude_lt large) s1 (tenTo_pos _)
      omega
    obtain ⟨i, hi⟩ := Nat.exists_eq_add_of_lt fewer
    have s1 : n = tenTo (i + 1) * e.magnitude := by
      rw [hi, Nat.add_assoc, tenTo_add, Nat.mul_comm (tenTo e.scale), ← Nat.mul_assoc] at same
      rw [Nat.eq_of_mul_eq_mul_right (tenTo_pos e.scale) same, Nat.mul_comm]
    have enough : fitsWithout n (i + 1) = true := by
      rw [fitsWithout_iff, s1, roundDiv_mul _ _ (tenTo_pos _)]
      exact e.magnitude_lt
    have le : j + 1 ≤ i + 1 := by
      by_contra no
      cases enough.symm.trans (needed (i + 1) (by omega))
    obtain ⟨l, hl⟩ := Nat.exists_eq_add_of_le le
    rw [s1, hl, tenTo_add (j + 1), Nat.mul_assoc]
    exact Nat.dvd_mul_right _ _

theorem GivesUp.value_eq (h : GivesUp cost x k d) (exact : tenTo k ∣ cost.magnitude * x.natAbs) :
    d.value = cost.value * x := by
  obtain ⟨c, hc⟩ := exact
  have whole : tenTo k * d.magnitude = cost.magnitude * x.natAbs := by
    rw [h.magnitude, hc, roundDiv_mul _ _ (tenTo_pos k)]
  have s1 := abs_value_sub h.isNegative h.scale
  rw [whole, Int.sub_self, Int.natAbs_zero, Nat.cast_zero, zero_div] at s1
  exact sub_eq_zero.1 (abs_eq_zero.1 s1)

/-! ## All products -/

theorem rounds_of_timesInt? (h : cost.timesInt? x = some d) :
    Rounds (cost.value * x) cost.scale d := by
  by_cases hz : cost.magnitude = 0 ∨ x = 0
  · rw [timesInt?_eq_some_iff, if_pos hz] at h
    rw [h, value_mul_eq_zero hz]
    exact rounds_zero cost.scale
  · obtain ⟨k, gives⟩ := exists_givesUp h hz
    exact gives.rounds

/-- A product is exact just if there is a decimal that is the exact product. -/
theorem value_eq_iff_of_timesInt? (h : cost.timesInt? x = some d) :
    d.value = cost.value * x ↔ IsRepresentable (cost.value * x) := by
  refine ⟨fun same => ⟨d, same⟩, fun ⟨e, he⟩ => ?_⟩
  by_cases hz : cost.magnitude = 0 ∨ x = 0
  · rw [timesInt?_eq_some_iff, if_pos hz] at h
    rw [h, value_mul_eq_zero hz, value_zero]
  · obtain ⟨k, gives⟩ := exists_givesUp h hz
    exact gives.value_eq (gives.tenTo_dvd he)

theorem fitsWithout_mono {j k : Nat} (h : j ≤ k) (fits : fitsWithout n j = true) :
    fitsWithout n k = true := by
  rw [fitsWithout_iff_lt] at fits ⊢
  obtain ⟨i, rfl⟩ := Nat.exists_eq_add_of_le h
  have s1 : tenTo j ≤ tenTo (j + i) := by
    rw [tenTo_add]
    exact Nat.le_mul_of_pos_right _ (tenTo_pos i)
  exact Nat.lt_of_lt_of_le fits (Nat.mul_le_mul_left _ s1)

theorem exists_timesInt?_iff (hz : ¬(cost.magnitude = 0 ∨ x = 0)) :
    (∃ d, cost.timesInt? x = some d) ↔
      fitsWithout (cost.magnitude * x.natAbs) cost.scale = true := by
  constructor
  · rintro ⟨d, h⟩
    obtain ⟨k, gives⟩ := exists_givesUp h hz
    have s1 := gives.scale
    exact fitsWithout_mono (by omega) gives.fits
  · intro fits
    obtain ⟨p, hp⟩ := exists_fit?_iff.2 ⟨cost.scale, Nat.le_refl _, fits⟩
    obtain ⟨h1, h2⟩ := fit?_bounds hp
    refine ⟨⟨cost.isNegative != decide (x < 0), p.1, p.2, h1, h2.trans cost.scale_le⟩,
      timesInt?_eq_some_iff.2 ?_⟩
    rw [if_neg hz]
    exact ⟨rfl, hp⟩

/-- There is no product just if there is no room for it even without places. -/
theorem timesInt?_eq_none_iff : cost.timesInt? x = none ↔ Overflows (cost.value * x) 0 := by
  have whole := @overflows_iff cost cost.scale x (Nat.le_refl _)
  rw [Nat.sub_self] at whole
  rw [whole]
  by_cases hz : cost.magnitude = 0 ∨ x = 0
  · have s1 : cost.magnitude * x.natAbs = 0 := by
      rcases hz with hm | rfl
      · rw [hm, Nat.zero_mul]
      · exact Nat.mul_zero _
    rw [timesInt?, if_pos hz, s1]
    refine iff_of_false nofun ?_
    rw [Bool.not_eq_false, fitsWithout_iff_lt]
    exact Nat.mul_pos (by decide) (tenTo_pos _)
  · rw [← Bool.not_eq_true, ← exists_timesInt?_iff hz, ← Option.not_isSome_iff_eq_none,
      Option.isSome_iff_exists]

end Decimal

end Stockroom
