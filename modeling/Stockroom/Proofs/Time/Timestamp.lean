import Stockroom.Proofs.Text.Digits
import Stockroom.Proofs.Time.Calendar
import Stockroom.Time.Timestamp.Text

/-! A point in time is read back from its text, leap seconds included. The parts of the text are
read one after the other, each leaving what follows it. -/
namespace Stockroom.Timestamp
set_option autoImplicit false

open Text
  (padded isDigit_of_mem_padded padded_ne_nil padded_eq_cons number?_padded length_padded_of_lt)

/-! ## Numbers -/

theorem readNumber_of_takeWhile {width len n : Nat} {rest : List Char}
    (h : ((padded len n ++ rest).take width).takeWhile Char.isDigit = padded len n) :
    readNumber width (padded len n ++ rest) = some (n, rest) := by
  rw [readNumber, h, number?_padded, Option.map_some, List.drop_left]

theorem readNumber_padded {width n : Nat} (hw : 0 < width) (hn : n < tenTo width)
    (rest : List Char) :
    readNumber width (padded width n ++ rest) = some (n, rest) := by
  refine readNumber_of_takeWhile ?_
  have hd : ∀ c ∈ padded width n, c.isDigit = true := fun c => isDigit_of_mem_padded
  have h0 : ∀ c ∈ ([] : List Char).head?, c.isDigit = false := fun c h => by cases h
  have s1 := Text.takeWhile_isDigit hd h0
  rw [List.append_nil] at s1
  rw [List.take_left' (length_padded_of_lt hw hn), s1]

theorem trimLeft_padded (width n : Nat) (rest : List Char) :
    Text.trimLeft (padded width n ++ rest) = padded width n ++ rest := by
  obtain ⟨c, cs, h, hc⟩ := padded_eq_cons width n
  rw [h]
  exact Text.trimLeft_of_isDigit hc

theorem readField_padded {n : Nat} (h : n < 100) (rest : List Char) :
    readField (padded 2 n ++ rest) = some (n, rest) := by
  rw [readField, trimLeft_padded]
  exact readNumber_padded (by decide) h rest

theorem readMark_cons {mark : Char} (h : Text.isBlank mark = false) (rest : List Char) :
    readMark mark (mark :: rest) = some rest := by
  rw [readMark, Text.trimLeft_of_not_blank mark rest h]
  exact if_pos rfl

/-! ## Years -/

/-- A number of any length behind a sign, up to a mark. -/
theorem readNumber_upTo {len n : Nat} {mark : Char} {rest : List Char} (h : mark.isDigit = false) :
    readNumber (padded len n ++ mark :: rest).length (padded len n ++ mark :: rest) =
      some (n, mark :: rest) := by
  refine readNumber_of_takeWhile ?_
  rw [List.take_length, Text.takeWhile_isDigit fun c => isDigit_of_mem_padded]
  intro c hc
  cases hc
  exact h

theorem readYear_yearChars {mark : Char} (h : mark.isDigit = false) (year : Int)
    (rest : List Char) :
    readYear (yearChars year ++ mark :: rest) = some (year, mark :: rest) := by
  unfold yearChars
  split
  · rename_i hy
    have hn : year.toNat < tenTo 4 := by
      show year.toNat < 10000
      omega
    have s1 := trimLeft_padded 4 year.toNat (mark :: rest)
    obtain ⟨c, cs, hc, hd⟩ := padded_eq_cons 4 year.toNat
    have s2 : readYear (padded 4 year.toNat ++ mark :: rest) =
        (readNumber 4 (padded 4 year.toNat ++ mark :: rest)).map fun p => ((p.1 : Int), p.2) := by
      rw [hc] at s1 ⊢
      rw [readYear, s1]
      split
      · rename_i e
        cases (List.cons.inj e).1
        cases hd
      · rename_i e
        cases (List.cons.inj e).1
        cases hd
      · rfl
    rw [s2, readNumber_padded (by decide) hn, Option.map_some, Int.toNat_of_nonneg hy.1]
  · by_cases hy : year < 0
    · rw [if_pos hy, List.cons_append, readYear, Text.trimLeft_of_not_blank _ _ rfl]
      show (readNumber (padded 4 year.natAbs ++ mark :: rest).length
          (padded 4 year.natAbs ++ mark :: rest)).map
        (fun p => (-(p.1 : Int), p.2)) = _
      rw [readNumber_upTo h, Option.map_some]
      have e : -(year.natAbs : Int) = year := by omega
      rw [e]
    · rw [if_neg hy, List.cons_append, readYear, Text.trimLeft_of_not_blank _ _ rfl]
      show (readNumber (padded 4 year.natAbs ++ mark :: rest).length
          (padded 4 year.natAbs ++ mark :: rest)).map
        (fun p => ((p.1 : Int), p.2)) = _
      rw [readNumber_upTo h, Option.map_some]
      have e : (year.natAbs : Int) = year := by omega
      rw [e]

/-! ## Fractions -/

theorem readFraction_padded {width n : Nat} (hw : 0 < width) (h9 : width ≤ 9)
    (hn : n < tenTo width) :
    readFraction ('.' :: padded width n ++ ['Z']) = some (n * tenTo (9 - width), ['Z']) := by
  have s1 : (padded width n ++ ['Z']).takeWhile Char.isDigit = padded width n :=
    Text.takeWhile_isDigit (fun c => isDigit_of_mem_padded) fun c hc => by cases hc; rfl
  have s2 : (padded width n).length = width := length_padded_of_lt hw hn
  have s3 : (padded width n).take 9 = padded width n := List.take_of_length_le (by omega)
  rw [List.cons_append, readFraction]
  simp only [s1, s3, number?_padded, Option.map_some, s2, List.drop_left' s2]

theorem readFraction_fractionChars {nano : Nat} (h : nano < 1000000000) :
    readFraction (fractionChars nano ++ ['Z']) = some (nano, ['Z']) := by
  unfold fractionChars
  split
  · rename_i h0
    rw [h0]
    rfl
  · split
    · rename_i h3
      have hn : nano / 1000000 < tenTo 3 := by
        show nano / 1000000 < 1000
        omega
      have e : nano / 1000000 * tenTo (9 - 3) = nano := by
        show nano / 1000000 * 1000000 = nano
        omega
      rw [readFraction_padded (by decide) (by decide) hn, e]
    · split
      · rename_i h6
        have hn : nano / 1000 < tenTo 6 := by
          show nano / 1000 < 1000000
          omega
        have e : nano / 1000 * tenTo (9 - 6) = nano := by
          show nano / 1000 * 1000 = nano
          omega
        rw [readFraction_padded (by decide) (by decide) hn, e]
      · have e : nano * tenTo (9 - 9) = nano := Nat.mul_one nano
        rw [readFraction_padded (by decide) (by decide) h, e]

/-! ## The whole text -/

/-- The time of day put together again, the leap second taken off. -/
theorem ofLocal?_parts (t : Timestamp) :
    ofLocal? (Calendar.Date.ofDayNumber t.day) (t.second / 3600) (t.second / 60 % 60)
      (t.second % 60 + if 1000000000 ≤ t.nano then 1 else 0) (t.nano % 1000000000) 0 = some t := by
  obtain ⟨day, second, nano, h1, h2, h3, h4, h5⟩ := t
  dsimp only
  have s1 : second % 60 < 60 := Nat.mod_lt _ (by decide)
  have s2 : ¬(24 ≤ second / 3600 ∨ 60 ≤ second / 60 % 60 ∨
      61 ≤ second % 60 + (if 1000000000 ≤ nano then 1 else 0) ∨
        (0 : Int) ≤ -86400 ∨ (86400 : Int) ≤ 0) := by
    split <;> omega
  have s3 : (if second % 60 + (if 1000000000 ≤ nano then 1 else 0) = 60 then 1 else 0) =
      if 1000000000 ≤ nano then 1 else 0 := by
    split <;> split <;> omega
  have s4 : second / 3600 * 3600 + second / 60 % 60 * 60 = second - second % 60 := by omega
  rw [ofLocal?, Calendar.dayNumber?_ofDayNumber, Option.bind_eq_bind, Option.bind_some,
    if_neg (not_not_intro ⟨h1, h2⟩), if_neg s2]
  simp only [s3, Nat.add_sub_cancel, Int.sub_zero]
  have e1 : day +
      ((second / 3600 * 3600 + second / 60 % 60 * 60 + second % 60 : Nat) : Int) / 86400 = day := by
    omega
  have e2 : (((second / 3600 * 3600 + second / 60 % 60 * 60 + second % 60 : Nat) : Int) %
      86400).toNat = second := by
    omega
  have e3 : nano % 1000000000 + (if 1000000000 ≤ nano then 1 else 0) * 1000000000 = nano := by
    split <;> omega
  rw [e1, e2, e3]
  exact dif_pos ⟨h1, h2, h3, h4, h5⟩

theorem month_lt (n : Int) :
    (Calendar.Date.ofDayNumber n).month < 100 ∧ (Calendar.Date.ofDayNumber n).day < 100 := by
  have h := Calendar.dayNumber?_ofDayNumber n
  unfold Calendar.Date.dayNumber? at h
  split at h
  · rename_i hv
    simp only [Calendar.Date.isValid, Bool.and_eq_true, decide_eq_true_eq] at hv
    obtain ⟨⟨⟨h1, h2⟩, h3⟩, h4⟩ := hv
    refine ⟨by omega, ?_⟩
    have s (leap : Bool) (k : Nat) : (Calendar.monthLengths leap).getD k 0 < 100 := by
      by_cases hk : k < 12
      · revert leap k
        decide
      · cases leap <;> simp [Calendar.monthLengths, Nat.le_of_not_lt hk]
    exact Nat.lt_of_le_of_lt h4 (s _ _)
  · cases h

theorem read_chars (t : Timestamp) : read t.chars = some t := by
  obtain ⟨hm, hd⟩ := month_lt t.day
  have s1 : t.second / 3600 < 100 := by
    have h := t.second_lt
    omega
  have s2 : t.second / 60 % 60 < 100 := by omega
  have s3 : t.second % 60 + (if 1000000000 ≤ t.nano then 1 else 0) < 100 := by
    split <;> omega
  have s4 : t.nano % 1000000000 < 1000000000 := Nat.mod_lt _ (by decide)
  have s5 : Text.isBlank '-' = false := rfl
  have s6 : Text.isBlank ':' = false := rfl
  have s7 := readFraction_fractionChars s4
  have s8 : Char.isDigit '-' = false := rfl
  unfold read chars
  simp only [List.append_assoc, List.cons_append, readYear_yearChars s8, readMark_cons s5,
    readMark_cons s6, readField_padded hm, readField_padded hd,
    readField_padded s1, readField_padded s2, readField_padded s3, s7,
    Option.bind_eq_bind, Option.bind_some]
  exact ofLocal?_parts t

theorem parse?_text (t : Timestamp) : parse? t.text = some t := by
  rw [parse?, text, String.toList_ofList]
  exact t.read_chars

end Stockroom.Timestamp
