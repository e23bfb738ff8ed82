import Mathlib.Algebra.Order.Field.Rat
import Mathlib.Tactic.NormNum
import Stockroom.Record.Basic

/-! Products that give up places. Rounding is monotone, so the places given up never become fewer as
a product grows; and the places that a greater product gives up beyond those of a smaller one never
take it below the smaller one. -/
namespace Stockroom
set_option autoImplicit false

/-! ## Rounding -/

variable {n m d : Nat}

theorem div_le_roundDiv (tie : Tie) (n d : Nat) : n / d ≤ roundDiv tie n d := by
  unfold roundDiv
  split
  · exact Nat.le_refl _
  · split
    · exact Nat.le_succ _
    · rcases tie.choose_eq_or (n / d) with e | e <;> omega

theorem roundDiv_le_div_succ (tie : Tie) (n d : Nat) : roundDiv tie n d ≤ n / d + 1 := by
  unfold roundDiv
  split
  · exact Nat.le_succ _
  · split
    · exact Nat.le_refl _
    · rcases tie.choose_eq_or (n / d) with e | e <;> omega

theorem div_lt_roundDiv_iff (tie : Tie) (n d : Nat) :
    n / d < roundDiv tie n d ↔ d < 2 * (n % d) ∨ 2 * (n % d) = d ∧ n / d < tie.choose (n / d) := by
  unfold roundDiv
  split
  · omega
  · split <;> omega

theorem roundDiv_mono (tie : Tie) (h : n ≤ m) (d : Nat) : roundDiv tie n d ≤ roundDiv tie m d := by
  by_contra less
  have s1 := roundDiv_le_div_succ tie n d
  have s2 := div_le_roundDiv tie m d
  have s3 : n / d ≤ m / d := Nat.div_le_div_right h
  have same : n / d = m / d := by omega
  have up := (div_lt_roundDiv_iff tie n d).1 (by omega)
  have down : ¬m / d < roundDiv tie m d := by omega
  rw [div_lt_roundDiv_iff, ← same] at down
  -- with one quotient for both, the rests are what is compared with one half
  have s4 := Nat.div_add_mod n d
  have s5 := Nat.div_add_mod m d
  rw [← same] at s5
  omega

namespace Decimal

/-! ## Fitting a magnitude -/

variable {scale : Nat} {p q : Nat × Nat}

/-- Whether a magnitude is in its range once it has given up `k` places. -/
def fitsWithout (n k : Nat) : Bool := decide (roundDiv .toEven n (tenTo k) < magnitudeBound)

theorem fitsWithout_iff {k : Nat} :
    fitsWithout n k = true ↔ roundDiv .toEven n (tenTo k) < magnitudeBound :=
  decide_eq_true_iff

theorem fitsWithout_of_le (h : n ≤ m) {k : Nat} (hm : fitsWithout m k = true) :
    fitsWithout n k = true := by
  rw [fitsWithout_iff] at hm ⊢
  exact Nat.lt_of_le_of_lt (roundDiv_mono .toEven h (tenTo k)) hm

theorem fit?_eq (n scale : Nat) : fit? n scale =
    ((List.range (scale + 1)).find? (fitsWithout n)).map fun k =>
      (roundDiv .toEven n (tenTo k), scale - k) := by
  unfold fit?
  induction List.range (scale + 1) with
  | nil => rfl
  | cons k ks ih =>
    rw [List.findSome?_cons, List.find?_cons]
    by_cases h : roundDiv .toEven n (tenTo k) < magnitudeBound
    · rw [if_pos h, fitsWithout_iff.2 h]
      rfl
    · rw [if_neg h, Bool.eq_false_iff.2 fun h' => h (fitsWithout_iff.1 h')]
      exact ih

/-- A magnitude gives up the fewest places that bring it into its range. -/
theorem fit?_eq_some_iff : fit? n scale = some p ↔ ∃ k ≤ scale, fitsWithout n k = true ∧
    (∀ j < k, fitsWithout n j = false) ∧ p = (roundDiv .toEven n (tenTo k), scale - k) := by
  rw [fit?_eq, Option.map_eq_some_iff]
  constructor
  · rintro ⟨k, hk, rfl⟩
    obtain ⟨h1, h2, h3⟩ := List.find?_range_eq_some.1 hk
    exact ⟨k, Nat.lt_succ_iff.1 (List.mem_range.1 h2), h1, fun j hj => by simpa using h3 j hj, rfl⟩
  · rintro ⟨k, hk, h1, h2, rfl⟩
    have found := List.find?_range_eq_some (p := fitsWithout n) (i := k) (n := scale + 1)
    exact ⟨k, found.2 ⟨h1, List.mem_range.2 (Nat.lt_succ_of_le hk),
      fun j hj => by rw [h2 j hj]; rfl⟩, rfl⟩

theorem fit?_bounds (h : fit? n scale = some p) : p.1 < magnitudeBound ∧ p.2 ≤ scale := by
  obtain ⟨k, -, hf, -, rfl⟩ := fit?_eq_some_iff.1 h
  exact ⟨fitsWithout_iff.1 hf, Nat.sub_le scale k⟩

theorem exists_fit?_iff : (∃ p, fit? n scale = some p) ↔ ∃ k ≤ scale, fitsWithout n k = true := by
  rw [← Option.isSome_iff_exists, fit?_eq, Option.isSome_map, List.find?_isSome]
  simp only [List.mem_range, Nat.lt_succ_iff]

theorem exists_fit?_of_le (h : n ≤ m) (hm : fit? m scale = some q) :
    ∃ p, fit? n scale = some p := by
  obtain ⟨k, hk, hf⟩ := exists_fit?_iff.1 ⟨q, hm⟩
  exact exists_fit?_iff.2 ⟨k, hk, fitsWithout_of_le h hf⟩

/-- What is out of range before it gives up one place more is, after that, at least a tenth
of all that is in range. -/
theorem magnitude_le_of_succ {k : Nat} (h : fitsWithout m k = false) :
    magnitudeBound - 1 ≤ 10 * roundDiv .toEven m (tenTo (k + 1)) := by
  have high : magnitudeBound ≤ roundDiv .toEven m (tenTo k) := by
    rw [← Nat.not_lt, ← fitsWithout_iff, h]
    simp
  have positive := tenTo_pos k
  obtain ⟨-, s1⟩ := roundDiv_error .toEven m (tenTo k) positive
  obtain ⟨s2, -⟩ := roundDiv_error .toEven m (tenTo (k + 1)) (tenTo_pos (k + 1))
  generalize roundDiv .toEven m (tenTo (k + 1)) = next at s2 ⊢
  have s3 : tenTo k * (2 * magnitudeBound) ≤ tenTo k * (20 * next + 11) := by
    have s4 := Nat.mul_le_mul_left (tenTo k) high
    have s5 : tenTo (k + 1) * next = 10 * (tenTo k * next) := by
      rw [tenTo_succ, Nat.mul_comm (tenTo k), Nat.mul_assoc]
    rw [s5, tenTo_succ] at s2
    calc tenTo k * (2 * magnitudeBound) = 2 * (tenTo k * magnitudeBound) := Nat.mul_left_comm ..
      _ ≤ 20 * (tenTo k * next) + 11 * tenTo k := by omega
      _ = tenTo k * (20 * next + 11) := by rw [Nat.mul_add, Nat.mul_left_comm, Nat.mul_comm 11]
  have s4 := Nat.le_of_mul_le_mul_left s3 positive
  unfold magnitudeBound at s4 ⊢
  omega

theorem le_of_fitsWithout (h : n ≤ m) {k i : Nat} (hn : fitsWithout n k = true)
    (hm : ∀ j < k + i, fitsWithout m j = false) :
    roundDiv .toEven n (tenTo k) ≤ roundDiv .toEven m (tenTo (k + i)) * tenTo i := by
  cases i with
  | zero =>
    rw [tenTo_zero, Nat.mul_one]
    exact roundDiv_mono .toEven h (tenTo k)
  | succ i =>
    have s1 := fitsWithout_iff.1 hn
    have s2 := magnitude_le_of_succ (hm (k + i) (Nat.lt_succ_self _))
    have s3 := tenTo_pos i
    calc roundDiv .toEven n (tenTo k) ≤ 10 * roundDiv .toEven m (tenTo (k + i + 1)) := by omega
      _ = roundDiv .toEven m (tenTo (k + i + 1)) * 10 := Nat.mul_comm ..
      _ ≤ roundDiv .toEven m (tenTo (k + i + 1)) * tenTo (i + 1) := by
        refine Nat.mul_le_mul_left _ ?_
        rw [tenTo_succ]
        omega

/-- Of two magnitudes of one scale the greater keeps no more places, and with the places it
keeps it is still no less. -/
theorem fit?_mono (h : n ≤ m) (hn : fit? n scale = some p) (hm : fit? m scale = some q) :
    p.1 * tenTo q.2 ≤ q.1 * tenTo p.2 := by
  obtain ⟨k, hk, hf, fewest, rfl⟩ := fit?_eq_some_iff.1 hn
  obtain ⟨l, hl, hg, needed, rfl⟩ := fit?_eq_some_iff.1 hm
  have le : k ≤ l := by
    by_contra gt
    cases (fewest l (by omega)).symm.trans (fitsWithout_of_le h hg)
  obtain ⟨i, rfl⟩ := Nat.exists_eq_add_of_le le
  have s1 : scale - k = i + (scale - (k + i)) := by omega
  dsimp only
  rw [s1, tenTo_add i, ← Nat.mul_assoc]
  exact Nat.mul_le_mul_right _ (le_of_fitsWithout h hf needed)

/-! ## Products -/

/-- The number that a decimal stands for. -/
def value (d : Decimal) : Rat := d.coefficient / tenTo d.scale

variable {cost a b d : Decimal} {x y : Int}

theorem cast_tenTo_pos (k : Nat) : (0 : Rat) < tenTo k := by exact_mod_cast tenTo_pos k

theorem value_le_iff :
    a.value ≤ b.value ↔ a.coefficient * tenTo b.scale ≤ b.coefficient * tenTo a.scale := by
  rw [value, value, div_le_div_iff₀ (cast_tenTo_pos _) (cast_tenTo_pos _)]
  exact_mod_cast Iff.rfl

theorem value_zero : zero.value = 0 := by
  rw [value, show zero.coefficient = 0 from rfl, Int.cast_zero, zero_div]

theorem value_nonneg_iff : 0 ≤ d.value ↔ d.isNegative = false ∨ d.magnitude = 0 := by
  have s1 := @value_le_iff zero d
  rw [value_zero] at s1
  rw [s1, show zero.coefficient = 0 from rfl, show zero.scale = 0 from rfl, tenTo_zero,
    Int.zero_mul, coefficient]
  cases d.isNegative <;> simp

theorem make?_eq_some_iff {isNegative : Bool} {magnitude scale : Nat} :
    make? isNegative magnitude scale = some d ↔
    d.isNegative = isNegative ∧ d.magnitude = magnitude ∧ d.scale = scale := by
  constructor
  · intro h
    unfold make? at h
    split at h
    · cases h
      exact ⟨rfl, rfl, rfl⟩
    · cases h
  · rintro ⟨rfl, rfl, rfl⟩
    exact make?_parts d

/-- A product is the plain zero, or it has the sign of the exact product and of its
places as many as fit. -/
theorem timesInt?_eq_some_iff : cost.timesInt? x = some d ↔
    if cost.magnitude = 0 ∨ x = 0 then d = zero
    else d.isNegative = (cost.isNegative != decide (x < 0)) ∧
      fit? (cost.magnitude * x.natAbs) cost.scale = some (d.magnitude, d.scale) := by
  unfold timesInt?
  split
  · rw [Option.some.injEq, eq_comm]
  · rw [Option.bind_eq_bind, Option.bind_eq_some_iff]
    simp only [make?_eq_some_iff]
    constructor
    · rintro ⟨p, hp, h1, h2, h3⟩
      rw [h2, h3]
      exact ⟨h1, hp⟩
    · rintro ⟨h1, h2⟩
      exact ⟨_, h2, h1, rfl, rfl⟩

theorem value_nonneg_of_timesInt? (hc : 0 ≤ cost.value) (hx : 0 ≤ x)
    (h : cost.timesInt? x = some d) : 0 ≤ d.value := by
  rw [timesInt?_eq_some_iff] at h
  split at h
  · rw [h, value_zero]
  · rename_i hn
    have s1 := (value_nonneg_iff.1 hc).resolve_right fun h0 => hn (Or.inl h0)
    rw [value_nonneg_iff, h.1, s1]
    simp [hx]

theorem coefficient_of_not_isNegative (h : d.isNegative = false) : d.coefficient = d.magnitude := by
  simp [coefficient, h]

/-- Fewer of what is worth nothing or more can be valued if more of it can, at no more than that. -/
theorem timesInt?_mono (hc : 0 ≤ cost.value) (hx : 0 ≤ x) (hy : x ≤ y)
    (h : cost.timesInt? y = some b) :
    ∃ a, cost.timesInt? x = some a ∧ a.value ≤ b.value := by
  have b_nonneg := value_nonneg_of_timesInt? hc (hx.trans hy) h
  by_cases hz : cost.magnitude = 0 ∨ x = 0
  · refine ⟨zero, timesInt?_eq_some_iff.2 (by rw [if_pos hz]), ?_⟩
    rw [value_zero]
    exact b_nonneg
  · have hz' : ¬(cost.magnitude = 0 ∨ y = 0) := by omega
    have positive := (value_nonneg_iff.1 hc).resolve_right fun h0 => hz (Or.inl h0)
    rw [timesInt?_eq_some_iff, if_neg hz', positive, decide_eq_false (by omega)] at h
    have le : cost.magnitude * x.natAbs ≤ cost.magnitude * y.natAbs :=
      Nat.mul_le_mul_left _ (by omega)
    obtain ⟨p, hp⟩ := exists_fit?_of_le le h.2
    obtain ⟨h1, h2⟩ := fit?_bounds hp
    refine ⟨⟨false, p.1, p.2, h1, h2.trans cost.scale_le⟩, ?_, ?_⟩
    · rw [timesInt?_eq_some_iff, if_neg hz, positive, decide_eq_false (by omega)]
      exact ⟨rfl, hp⟩
    · rw [value_le_iff, coefficient_of_not_isNegative h.1, coefficient_of_not_isNegative rfl]
      exact_mod_cast fit?_mono le hp h.2

end Decimal

end Stockroom
