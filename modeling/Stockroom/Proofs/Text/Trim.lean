import Stockroom.Text.Blank

/-! What trimming does. Of every text it leaves the one part that has blanks around it and none at
its ends, and so it takes away again whatever blanks are put around what it left. -/
namespace Stockroom.Text
set_option autoImplicit false

/-- Blanks and nothing else. -/
def IsBlankText (cs : List Char) : Prop := ∀ c ∈ cs, isBlank c = true

/-- There is no blank at either end. -/
structure IsTrimmed (cs : List Char) : Prop where
  head : ∀ c ∈ cs.head?, isBlank c = false
  last : ∀ c ∈ cs.getLast?, isBlank c = false

variable {cs ds before after : List Char} {c : Char}

theorem trimLeft_append (h : IsBlankText before) (cs : List Char) :
    trimLeft (before ++ cs) = trimLeft cs :=
  List.dropWhile_append_of_pos h

theorem trimLeft_eq_self (h : ∀ c ∈ cs.head?, isBlank c = false) : trimLeft cs = cs := by
  cases cs with
  | nil => rfl
  | cons c cs => exact trimLeft_of_not_blank c cs (h c rfl)

theorem IsBlankText.reverse (h : IsBlankText cs) : IsBlankText cs.reverse :=
  fun c hc => h c (List.mem_reverse.1 hc)

/-- Nothing but blanks is taken away on the left, and the blanks there are all taken away. -/
theorem exists_trimLeft (cs : List Char) :
    ∃ before, IsBlankText before ∧ cs = before ++ trimLeft cs ∧
    ∀ c ∈ (trimLeft cs).head?, isBlank c = false := by
  refine ⟨cs.takeWhile isBlank, ?_, List.takeWhile_append_dropWhile.symm, fun c hc => ?_⟩
  · exact List.all_eq_true.1 List.all_takeWhile
  · have s1 := List.head?_dropWhile_not isBlank cs
    rw [trimLeft, Option.mem_def] at hc
    rwa [hc] at s1

theorem trim_eq (hb : IsBlankText before) (ha : IsBlankText after) (h : IsTrimmed cs) :
    trim (before ++ cs ++ after) = cs := by
  rw [trim, List.append_assoc, trimLeft_append hb]
  cases cs with
  | nil =>
    rw [List.nil_append, (trimLeft_eq_nil_iff after).2 ha]
    rfl
  | cons c cs =>
    have left : trimLeft (c :: cs ++ after) = c :: cs ++ after := trimLeft_eq_self h.head
    have right : trimLeft (c :: cs).reverse = (c :: cs).reverse :=
      trimLeft_eq_self fun a ha => h.last a (by rwa [List.head?_reverse] at ha)
    rw [left, List.reverse_append, trimLeft_append ha.reverse, right, List.reverse_reverse]

theorem exists_trim (cs : List Char) : ∃ before after, IsBlankText before ∧ IsBlankText after ∧
    cs = before ++ trim cs ++ after ∧ IsTrimmed (trim cs) := by
  obtain ⟨before, hb, left, head⟩ := exists_trimLeft cs
  obtain ⟨after, ha, right, last⟩ := exists_trimLeft (trimLeft cs).reverse
  have whole : trimLeft cs = trim cs ++ after.reverse := by
    rw [trim, ← List.reverse_append, ← right, List.reverse_reverse]
  refine ⟨before, after.reverse, hb, ha.reverse, ?_, ?_, ?_⟩
  · rw [List.append_assoc, ← whole, ← left]
  · intro c hc
    refine head c ?_
    rw [whole, List.head?_append, Option.mem_def.1 hc]
    rfl
  · intro c hc
    rw [trim, List.getLast?_reverse] at hc
    exact last c hc

theorem trim_eq_nil_iff : trim cs = [] ↔ IsBlankText cs := by
  constructor
  · intro h
    obtain ⟨before, after, hb, ha, e, -⟩ := exists_trim cs
    rw [h, List.append_nil] at e
    intro c hc
    rw [e] at hc
    exact (List.mem_append.1 hc).elim (hb c) (ha c)
  · intro h
    have none : IsBlankText [] := List.forall_mem_nil _
    have trimmed : IsTrimmed [] :=
      ⟨fun c h => absurd h (Option.not_mem_none c), fun c h => absurd h (Option.not_mem_none c)⟩
    have s1 := trim_eq h none trimmed
    rwa [List.append_nil, List.append_nil] at s1

end Stockroom.Text
