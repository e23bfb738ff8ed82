import Stockroom.Text.KeyOrder

/-! Texts in the order of their code points are in the order of their bytes. The forms of two
characters differ in their first byte if they are of unequal length, and otherwise carry the digits
of the code points to the base 64. -/
namespace Stockroom.Text
set_option autoImplicit false

/-- The UTF-8 form of a text. -/
def utf8 (s : String) : List UInt8 := s.toUTF8.data.toList

theorem utf8_eq (s : String) : utf8 s = s.toList.flatMap String.utf8EncodeChar := by
  rw [utf8, String.toUTF8_eq_toByteArray, ← String.utf8Encode_toList, List.utf8Encode,
    List.toList_data_toByteArray]

/-! ## Characters -/

/-- Of two numbers that differ above a digit those parts decide, and else the digit. -/
theorem digit_lt {v w : Nat} (k : Nat) (h : v / k < w / k) :
    v / (k * 64) < w / (k * 64) ∨ v / (k * 64) = w / (k * 64) ∧ v / k % 64 < w / k % 64 := by
  rw [← Nat.div_div_eq_div_mul, ← Nat.div_div_eq_div_mul]
  omega

theorem digits_lt {v w : Nat} (h : v < w) :
    v / 262144 < w / 262144 ∨ v / 262144 = w / 262144 ∧
      (v / 4096 % 64 < w / 4096 % 64 ∨ v / 4096 % 64 = w / 4096 % 64 ∧
        (v / 64 % 64 < w / 64 % 64 ∨ v / 64 % 64 = w / 64 % 64 ∧ v % 64 < w % 64)) := by
  rw [← Nat.div_one v, ← Nat.div_one w] at h
  rcases digit_lt 1 h with h | ⟨h, s1⟩
  · rcases digit_lt 64 h with h | ⟨h, s1⟩
    · rcases digit_lt 4096 h with h | ⟨h, s1⟩
      · exact Or.inl h
      · exact Or.inr ⟨h, Or.inl s1⟩
    · omega
  · omega

/-- A smaller character has the smaller form, whatever follows either. -/
theorem utf8EncodeChar_lt {c d : Char} (h : c < d) (xs ys : List UInt8) :
    String.utf8EncodeChar c ++ xs < String.utf8EncodeChar d ++ ys := by
  have s1 : c.val.toNat < d.val.toNat := h
  have s2 : d.val.toNat < 0x110000 := by
    rcases d.valid with hd | hd
    · exact Nat.lt_trans hd (by decide)
    · exact hd.2
  unfold String.utf8EncodeChar
  dsimp only
  generalize c.val.toNat = v at *
  generalize d.val.toNat = w at *
  have s3 := digits_lt s1
  -- one case for each pair of lengths; only for two forms of four bytes the
  -- digits have to be spelt out
  repeat' split
  all_goals simp only [List.cons_append, List.nil_append,
    List.cons_lt_cons_iff, UInt8.lt_iff_toNat_lt, ← UInt8.toNat_inj, UInt8.toNat_ofNat']
  all_goals simp (disch := omega) only [Nat.mod_eq_of_lt]
  all_goals omega

/-! ## Texts -/

theorem flatMap_utf8EncodeChar_lt {cs ds : List Char} (h : cs < ds) :
    cs.flatMap String.utf8EncodeChar < ds.flatMap String.utf8EncodeChar := by
  induction h with
  | @nil d ds =>
    rw [List.flatMap_cons, List.flatMap_nil]
    cases he : String.utf8EncodeChar d with
    | nil => exact absurd he String.utf8EncodeChar_ne_nil
    | cons b bs => exact List.Lex.nil
  | cons h ih =>
    rw [List.flatMap_cons, List.flatMap_cons]
    exact List.append_left_lt ih
  | rel h =>
    rw [List.flatMap_cons, List.flatMap_cons]
    exact utf8EncodeChar_lt h _ _

theorem utf8_lt_of_lt {s t : String} (h : s < t) : utf8 s < utf8 t := by
  rw [utf8_eq, utf8_eq]
  exact flatMap_utf8EncodeChar_lt h

theorem utf8_lt_iff {s t : String} : utf8 s < utf8 t ↔ s < t := by
  refine ⟨fun h => ?_, utf8_lt_of_lt⟩
  by_cases hs : s < t
  · exact hs
  · by_cases ht : t < s
    · exact absurd (utf8_lt_of_lt ht) (List.lt_asymm h)
    · rw [String.le_antisymm (String.not_lt.1 ht) (String.not_lt.1 hs)] at h
      exact absurd h (List.lt_irrefl _)

end Stockroom.Text
