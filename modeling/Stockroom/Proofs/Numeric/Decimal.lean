import Stockroom.Numeric.Decimal.Text
import Stockroom.Proofs.Text.Digits

/-! A decimal is read back from its text, sign and scale included, but for the sign of a negative
zero: a zero in digits takes none. -/
namespace Stockroom.Decimal
set_option autoImplicit false

open Text (isDigit_of_mem_padded isDigit_of_mem_digits)

/-! ## Digits -/

theorem le_ofDigitChars (cs : List Char) (n : Nat) : n ≤ Nat.ofDigitChars 10 cs n := by
  rw [Nat.ofDigitChars_eq_ofDigitChars_zero]
  exact Nat.le_trans (Nat.le_mul_of_pos_left n (Nat.pow_pos (by decide))) (Nat.le_add_right _ _)

theorem Reading.run_cons {r : Reading} {c : Char} {cs : List Char} (hc : c.isDigit = true)
    (hr : r.hasRoom (c.toNat - 48) = true) : r.run (c :: cs) = (r.push (c.toNat - 48)).run cs := by
  rw [Reading.run, Text.digit?_of_isDigit hc]
  exact if_pos hr

/-- Digits before the point. -/
theorem Reading.run_whole {cs rest : List Char} {m : Nat} {started : Bool}
    (hd : ∀ c ∈ cs, c.isDigit = true) (hm : Nat.ofDigitChars 10 cs m < magnitudeBound) :
    Reading.run ⟨m, 0, false, started⟩ (cs ++ rest) =
      Reading.run ⟨Nat.ofDigitChars 10 cs m, 0, false, started || !cs.isEmpty⟩ rest := by
  induction cs generalizing m started with
  | nil => simp
  | cons c cs ih =>
    rw [Text.ofDigitChars_cons] at hm ⊢
    have hr : (⟨m, 0, false, started⟩ : Reading).hasRoom (c.toNat - 48) = true := by
      have s := Nat.lt_of_le_of_lt (le_ofDigitChars cs _) hm
      simpa [Reading.hasRoom, Reading.isFull] using s
    rw [List.cons_append, Reading.run_cons (hd c List.mem_cons_self) hr]
    show Reading.run ⟨10 * m + (c.toNat - 48), 0, false, true⟩ (cs ++ rest) = _
    rw [ih (fun d h => hd d (List.mem_cons_of_mem c h)) hm]
    simp

/-- Digits behind the point, as many as a scale can count. -/
theorem Reading.run_fraction {cs : List Char} {m k : Nat} (hd : ∀ c ∈ cs, c.isDigit = true)
    (hm : Nat.ofDigitChars 10 cs m < magnitudeBound) (hk : k + cs.length ≤ 28) :
    Reading.run ⟨m, k, true, true⟩ cs = some (Nat.ofDigitChars 10 cs m, k + cs.length) := by
  induction cs generalizing m k with
  | nil => simp [Reading.run]
  | cons c cs ih =>
    rw [Text.ofDigitChars_cons] at hm ⊢
    rw [List.length_cons] at hk ⊢
    have hr : (⟨m, k, true, true⟩ : Reading).hasRoom (c.toNat - 48) = true := by
      have s1 := Nat.lt_of_le_of_lt (le_ofDigitChars cs _) hm
      have s2 : k ≠ 28 := by omega
      simpa [Reading.hasRoom, Reading.isFull, s2] using s1
    rw [Reading.run_cons (hd c List.mem_cons_self) hr]
    show Reading.run ⟨10 * m + (c.toNat - 48), k + 1, true, true⟩ cs = _
    rw [ih (fun d h => hd d (List.mem_cons_of_mem c h)) hm (by omega),
      Nat.add_assoc, Nat.add_comm 1]

/-! ## Whole numbers and numbers with a point -/

theorem run_pointed {m scale : Nat} (hm : m < magnitudeBound) (hs : scale ≤ 28) :
    Reading.run ⟨0, 0, false, false⟩ (pointed m scale) = some (m, scale) := by
  unfold pointed
  split
  · rename_i h0
    have e : Nat.ofDigitChars 10 (Text.digits m) 0 = m :=
      Nat.ofDigitChars_toDigits (by decide) (by decide)
    have hd : ∀ c ∈ Text.digits m, c.isDigit = true := fun c => isDigit_of_mem_digits
    rw [← List.append_nil (Text.digits m), Reading.run_whole hd (by rw [e]; exact hm), e, h0]
    simp [Reading.run, Text.digits]
  · have e := Text.ofDigitChars_padded (scale + 1) m
    have hl : scale + 1 ≤ (Text.padded (scale + 1) m).length := by
      rw [Text.padded, List.length_append, List.length_replicate]
      omega
    have hd : ∀ c ∈ Text.padded (scale + 1) m, c.isDigit = true := fun c => isDigit_of_mem_padded
    generalize Text.padded (scale + 1) m = ds at e hl hd
    rw [← List.take_append_drop (ds.length - scale) ds, Nat.ofDigitChars_append] at e
    have hw : (ds.take (ds.length - scale)).isEmpty = false := by
      rw [List.isEmpty_eq_false_iff, ← List.length_pos_iff, List.length_take]
      omega
    have hf : (ds.drop (ds.length - scale)).length = scale := by
      rw [List.length_drop]
      omega
    have s1 := Nat.lt_of_le_of_lt (le_ofDigitChars (ds.drop (ds.length - scale)) _) (e ▸ hm)
    dsimp only
    rw [Reading.run_whole (fun c h => hd c (List.mem_of_mem_take h)) s1, hw]
    show Reading.run ⟨_, 0, true, true⟩ _ = _
    rw [Reading.run_fraction (fun c h => hd c (List.mem_of_mem_drop h)) (e ▸ hm) (by omega), e, hf,
      Nat.zero_add]

/-- A number begins with a digit. -/
theorem pointed_eq_cons (m scale : Nat) : ∃ c cs, pointed m scale = c :: cs ∧ c.isDigit = true := by
  unfold pointed
  split
  · have hn : Text.digits m ≠ [] := Nat.toDigits_ne_nil
    obtain ⟨c, cs, h⟩ := List.exists_cons_of_ne_nil hn
    exact ⟨c, cs, h, isDigit_of_mem_digits (n := m) (h ▸ List.mem_cons_self)⟩
  · have hl : scale + 1 ≤ (Text.padded (scale + 1) m).length := by
      rw [Text.padded, List.length_append, List.length_replicate]
      omega
    have hd : ∀ c ∈ Text.padded (scale + 1) m, c.isDigit = true := fun c => isDigit_of_mem_padded
    generalize Text.padded (scale + 1) m = ds at hl hd
    cases ds with
    | nil => cases hl
    | cons c cs =>
      have e : (c :: cs).length - scale = (cs.length - scale) + 1 := by
        rw [List.length_cons] at hl ⊢
        omega
      dsimp only
      rw [e, List.take_succ_cons, List.cons_append]
      exact ⟨c, _, rfl, hd c List.mem_cons_self⟩

theorem plain?_pointed (m scale : Nat) :
    plain? (pointed m scale) = unsigned? false (pointed m scale) := by
  obtain ⟨c, cs, h, hc⟩ := pointed_eq_cons m scale
  rw [h, plain?]
  · intro cs' e
    cases (List.cons.inj e).1
    cases hc
  · intro cs' e
    cases (List.cons.inj e).1
    cases hc

/-! ## Signs of zeros -/

/-- A decimal that digits can stand for: no negative zero. -/
def IsCanonical (d : Decimal) : Prop := d.isNegative = true → d.magnitude ≠ 0

instance (d : Decimal) : Decidable d.IsCanonical := inferInstanceAs (Decidable (_ → _))

/-- The decimal of the same digits; a zero loses its sign. -/
def canonical (d : Decimal) : Decimal := { d with isNegative := d.isNegative && d.magnitude != 0 }

theorem isCanonical_canonical (d : Decimal) : d.canonical.IsCanonical := by
  intro h
  have s1 : (d.isNegative && d.magnitude != 0) = true := h
  rw [Bool.and_eq_true, bne_iff_ne] at s1
  exact s1.2

theorem IsCanonical.canonical_eq {d : Decimal} (h : d.IsCanonical) : d.canonical = d := by
  have s1 : (d.isNegative && d.magnitude != 0) = d.isNegative := by
    cases hn : d.isNegative with
    | true => simpa using h hn
    | false => rfl
  rw [canonical, s1]

theorem map_canonical {x : Option Decimal} (h : ∀ d ∈ x, d.IsCanonical) : x.map canonical = x := by
  cases x with
  | none => rfl
  | some d => exact congrArg some (h d rfl).canonical_eq

/-- The sign of a zero does not count for its value. -/
theorem sameValue_canonical (d : Decimal) : d.sameValue d.canonical = true := by
  have s1 : d.canonical.coefficient = d.coefficient := by
    unfold coefficient
    cases hn : d.isNegative with
    | false => simp [canonical, hn]
    | true =>
      by_cases hm : d.magnitude = 0
      · simp [canonical, hm]
      · simp [canonical, hn, hm]
  have s2 : d.canonical.scale = d.scale := rfl
  rw [sameValue, s1, s2, beq_self_eq_true]

theorem parse?_text (d : Decimal) : parse? d.text = some d.canonical := by
  have s1 := run_pointed d.magnitude_lt d.scale_le
  have s2 := d.canonical.make?_parts
  have s3 : plain? d.chars = some d.canonical := by
    unfold chars
    cases hn : d.isNegative with
    | true =>
      rw [canonical, hn] at s2 ⊢
      show unsigned? true (pointed d.magnitude d.scale) = _
      rw [unsigned?, s1, Option.bind_eq_bind, Option.bind_some]
      exact s2
    | false =>
      rw [canonical, hn] at s2 ⊢
      rw [if_neg (by decide), plain?_pointed, unsigned?, s1, Option.bind_eq_bind, Option.bind_some]
      exact s2
  rw [parse?, text, String.toList_ofList, s3, Option.some_or]

end Stockroom.Decimal
