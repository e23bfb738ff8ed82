import Stockroom.Numeric.Power
import Stockroom.Text.Blank
import Stockroom.Text.Digits

/-! Numbers read back from their digits, with or without zeros in front. -/
namespace Stockroom.Text
set_option autoImplicit false

/-! ## Single digits -/

theorem digit?_of_isDigit {c : Char} (h : c.isDigit = true) : digit? c = some (c.toNat - 48) := by
  rw [digit?, if_pos h]

theorem not_isBlank_of_isDigit {c : Char} (h : c.isDigit = true) : isBlank c = false := by
  rw [Char.isDigit, Bool.and_eq_true, decide_eq_true_eq, decide_eq_true_eq] at h
  have h1 : 48 ≤ c.toNat := h.1
  have h2 : c.toNat ≤ 57 := h.2
  simp only [isBlank, blankRanges, List.any_cons, List.any_nil, Bool.or_false, Bool.or_eq_false_iff,
    Bool.and_eq_false_iff, decide_eq_false_iff_not]
  omega

theorem trimLeft_of_isDigit {c : Char} {cs : List Char} (h : c.isDigit = true) :
    trimLeft (c :: cs) = c :: cs :=
  trimLeft_of_not_blank c cs (not_isBlank_of_isDigit h)

/-! ## Runs of digits -/

theorem number?_of_isDigit {cs : List Char} (hd : ∀ c ∈ cs, c.isDigit = true) (hn : cs ≠ []) :
    number? cs = some (Nat.ofDigitChars 10 cs 0) := by
  have s1 : cs.mapM digit? = some (cs.map fun c => c.toNat - 48) := by
    induction cs with
    | nil => rfl
    | cons c cs ih =>
      rw [List.mapM_cons, digit?_of_isDigit (hd c List.mem_cons_self)]
      by_cases he : cs = []
      · subst he
        rfl
      · rw [ih (fun d h => hd d (List.mem_cons_of_mem c h)) he]
        rfl
  rw [number?, if_neg (by simpa using hn), s1, Option.map_some, valueOf, List.foldl_map]
  rfl

theorem ofDigitChars_cons (c : Char) (cs : List Char) (n : Nat) :
    Nat.ofDigitChars 10 (c :: cs) n = Nat.ofDigitChars 10 cs (10 * n + (c.toNat - 48)) :=
  Nat.ofDigitChars_cons

theorem takeWhile_isDigit {cs rest : List Char} (hd : ∀ c ∈ cs, c.isDigit = true)
    (hr : ∀ c ∈ rest.head?, c.isDigit = false) : (cs ++ rest).takeWhile Char.isDigit = cs := by
  induction cs with
  | nil =>
    cases rest with
    | nil => rfl
    | cons c rest => exact List.takeWhile_cons_of_neg (by simpa using hr c rfl)
  | cons c cs ih =>
    rw [List.cons_append, List.takeWhile_cons_of_pos (hd c List.mem_cons_self),
      ih fun d h => hd d (List.mem_cons_of_mem c h)]

/-! ## Written numbers -/

theorem isDigit_of_mem_digits {n : Nat} {c : Char} (h : c ∈ digits n) : c.isDigit = true :=
  Nat.isDigit_of_mem_toDigits (by decide) (by decide) h

theorem isDigit_of_mem_padded {width n : Nat} {c : Char}
    (h : c ∈ padded width n) : c.isDigit = true := by
  rcases List.mem_append.1 h with h | h
  · rw [List.eq_of_mem_replicate h]
    rfl
  · exact isDigit_of_mem_digits h

theorem padded_ne_nil (width n : Nat) : padded width n ≠ [] := by
  simp [padded, digits]

theorem ofDigitChars_padded (width n : Nat) : Nat.ofDigitChars 10 (padded width n) 0 = n := by
  rw [padded, Nat.ofDigitChars_append, Nat.ofDigitChars_replicate_zero, Nat.mul_zero]
  exact Nat.ofDigitChars_toDigits (by decide) (by decide)

theorem number?_padded (width n : Nat) : number? (padded width n) = some n := by
  rw [number?_of_isDigit (fun c => isDigit_of_mem_padded) (padded_ne_nil width n),
    ofDigitChars_padded]

theorem length_padded_of_lt {width n : Nat} (hw : 0 < width) (h : n < tenTo width) :
    (padded width n).length = width :=
  length_padded width n ((Nat.length_toDigits_le_iff (by decide) hw).2 h)

/-- A written number begins with a digit. -/
theorem padded_eq_cons (width n : Nat) : ∃ c cs, padded width n = c :: cs ∧ c.isDigit = true := by
  obtain ⟨c, cs, h⟩ := List.exists_cons_of_ne_nil (padded_ne_nil width n)
  exact ⟨c, cs, h, isDigit_of_mem_padded (h ▸ List.mem_cons_self)⟩

end Stockroom.Text
