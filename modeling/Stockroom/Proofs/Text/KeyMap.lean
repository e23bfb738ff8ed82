import Mathlib.Data.List.Sort
import Stockroom.Numeric.Total
import Stockroom.Text.KeyOrder

/-! Sorted maps as finite functions: look-up and membership agree, a change under one key leaves
all others, a map is made again from the list of its entries, and sums over the values follow
insertions and changes. -/
namespace Stockroom.KeyMap
set_option autoImplicit false

variable {κ α : Type} [TextKey κ]

/-! ## Look-up and membership -/

theorem lookup_eq_some_iff {k : κ} {a : α} {es : List (κ × α)}
    (h : es.Pairwise fun a b => TextKey.text a.1 < TextKey.text b.1) :
    lookup k es = some a ↔ (k, a) ∈ es := by
  induction es with
  | nil => simp [lookup]
  | cons e es ih =>
    obtain ⟨k', a'⟩ := e
    obtain ⟨s1, s2⟩ := List.pairwise_cons.1 h
    rw [lookup, List.mem_cons]
    by_cases hk : TextKey.text k = TextKey.text k'
    · have e1 : k = k' := TextKey.text_injective _ _ hk
      subst e1
      rw [if_pos rfl]
      constructor
      · intro h1
        cases h1
        exact Or.inl rfl
      · rintro (h1 | h1)
        · cases h1
          rfl
        · exact absurd (s1 _ h1) (String.lt_irrefl _)
    · rw [if_neg hk, ih s2]
      constructor
      · exact Or.inr
      · rintro (h1 | h1)
        · cases h1
          exact absurd rfl hk
        · exact h1

theorem get?_eq_some_iff {m : KeyMap κ α} {k : κ} {a : α} :
    m.get? k = some a ↔ (k, a) ∈ m.entries :=
  lookup_eq_some_iff m.ascending

theorem mem_values_iff {m : KeyMap κ α} {a : α} : a ∈ m.values ↔ ∃ k, m.get? k = some a := by
  unfold values
  rw [List.mem_map]
  constructor
  · rintro ⟨⟨k, b⟩, h, rfl⟩
    exact ⟨k, get?_eq_some_iff.2 h⟩
  · rintro ⟨k, h⟩
    exact ⟨(k, a), get?_eq_some_iff.1 h, rfl⟩

theorem get?_insert (m : KeyMap κ α) (k k' : κ) (a : α) :
    (m.insert k a).get? k' = if TextKey.text k' = TextKey.text k then some a else m.get? k' := by
  by_cases h : TextKey.text k' = TextKey.text k
  · rw [if_pos h, TextKey.text_injective _ _ h, get?_insert_self]
  · rw [if_neg h, get?_insert_of_ne m a h]

theorem lookup_map (k k' : κ) (f : α → α) (es : List (κ × α)) :
    lookup k' (es.map fun e => if TextKey.text k = TextKey.text e.1 then (e.1, f e.2) else e) =
      if TextKey.text k' = TextKey.text k then (lookup k' es).map f else lookup k' es := by
  induction es with
  | nil => simp [lookup]
  | cons e es ih =>
    obtain ⟨k'', a⟩ := e
    rw [List.map_cons]
    by_cases h1 : TextKey.text k = TextKey.text k'' <;>
      by_cases h2 : TextKey.text k' = TextKey.text k''
    · simp only [lookup, h1, h2, if_true, Option.map_some]
    · rw [if_pos h1]
      simp only [lookup, h2, if_false, ih]
    · have h3 : TextKey.text k'' ≠ TextKey.text k := fun h => h1 h.symm
      simp only [lookup, h1, h2, h3, if_true, if_false]
    · simp only [lookup, h1, h2, if_false, ih]

theorem get?_modify (m : KeyMap κ α) (k k' : κ) (f : α → α) :
    (m.modify k f).get? k' = if TextKey.text k' = TextKey.text k then
      (m.get? k').map f else m.get? k' :=
  lookup_map k k' f m.entries

theorem eq_of_entries_eq {m n : KeyMap κ α} (h : m.entries = n.entries) : m = n := by
  cases m
  cases n
  cases h
  rfl

/-- A list of entries in ascending order is known by its members. -/
theorem ascending_eq_of_mem_iff {es fs : List (κ × α)}
    (he : es.Pairwise fun a b => TextKey.text a.1 < TextKey.text b.1)
    (hf : fs.Pairwise fun a b => TextKey.text a.1 < TextKey.text b.1)
    (h : ∀ e, e ∈ es ↔ e ∈ fs) : es = fs := by
  have irrefl : Std.Irrefl fun a b : κ × α => TextKey.text a.1 < TextKey.text b.1 :=
    ⟨fun a => String.lt_irrefl _⟩
  have antisymm : Std.Antisymm fun a b : κ × α => TextKey.text a.1 < TextKey.text b.1 :=
    ⟨fun a b lt gt => absurd (String.lt_trans lt gt) (String.lt_irrefl _)⟩
  exact he.eq_of_mem_iff hf h

theorem eq_of_get?_eq {m n : KeyMap κ α} (h : ∀ k, m.get? k = n.get? k) : m = n := by
  refine eq_of_entries_eq (ascending_eq_of_mem_iff m.ascending n.ascending fun e => ?_)
  rw [← get?_eq_some_iff, ← get?_eq_some_iff, h]

/-- A change depends on what it makes of the value under the key alone. -/
theorem modify_congr {m : KeyMap κ α} {k : κ} {f g : α → α}
    (h : ∀ a, m.get? k = some a → f a = g a) : m.modify k f = m.modify k g := by
  refine eq_of_entries_eq (List.map_congr_left fun e he => ?_)
  by_cases hk : TextKey.text k = TextKey.text e.1
  · have s1 : k = e.1 := TextKey.text_injective _ _ hk
    rw [if_pos hk, if_pos hk, h e.2 (get?_eq_some_iff.2 (s1 ▸ he))]
  · rw [if_neg hk, if_neg hk]

theorem modify_eq_self {m : KeyMap κ α} {k : κ} (h : m.get? k = none)
    (f : α → α) : m.modify k f = m := by
  refine eq_of_get?_eq fun j => ?_
  rw [get?_modify]
  split
  · rename_i hk
    rw [TextKey.text_injective _ _ hk, h, Option.map_none]
  · rfl

theorem modify_comm {m : KeyMap κ α} {k l : κ} (ne : TextKey.text k ≠ TextKey.text l)
    (f g : α → α) :
    (m.modify k f).modify l g = (m.modify l g).modify k f := by
  refine eq_of_get?_eq fun j => ?_
  simp only [get?_modify]
  by_cases hk : TextKey.text j = TextKey.text k
  · have hl : TextKey.text j ≠ TextKey.text l := fun e => ne (hk.symm.trans e)
    simp only [hk, ne, if_true, if_false]
  · simp only [hk, if_false]

/-! ## Maps from lists -/

/-- A key beyond all others is placed at the end. -/
theorem place_eq_append {k : κ} (a : α) {es : List (κ × α)}
    (h : ∀ e ∈ es, TextKey.text e.1 < TextKey.text k) : place k a es = es ++ [(k, a)] := by
  induction es with
  | nil => rfl
  | cons e es ih =>
    obtain ⟨k', a'⟩ := e
    have lt : TextKey.text k' < TextKey.text k := h _ List.mem_cons_self
    have not_lt : ¬TextKey.text k < TextKey.text k' :=
      fun gt => String.lt_irrefl _ (String.lt_trans lt gt)
    have ne : TextKey.text k ≠ TextKey.text k' := fun e => String.lt_irrefl _ (e ▸ lt)
    rw [place, if_neg not_lt, if_neg ne, ih fun e he => h e (List.mem_cons_of_mem _ he)]
    rfl

theorem entries_foldl_insert {m : KeyMap κ α} {es : List (κ × α)}
    (h : (m.entries ++ es).Pairwise fun a b => TextKey.text a.1 < TextKey.text b.1) :
    (es.foldl (fun m e => m.insert e.1 e.2) m).entries = m.entries ++ es := by
  induction es generalizing m with
  | nil => exact (List.append_nil m.entries).symm
  | cons e es ih =>
    have s1 : (m.insert e.1 e.2).entries = m.entries ++ [e] :=
      place_eq_append e.2 fun d hd => (List.pairwise_append.1 h).2.2 d hd e List.mem_cons_self
    have s2 : m.entries ++ e :: es = (m.insert e.1 e.2).entries ++ es := by simp [s1]
    rw [s2] at h ⊢
    exact ih h

/-- A map is made again from its entries. -/
theorem ofList_entries (m : KeyMap κ α) : ofList m.entries = m := by
  have s1 : ((empty : KeyMap κ α).entries ++ m.entries).Pairwise fun a b =>
    TextKey.text a.1 < TextKey.text b.1 :=
    m.ascending
  exact eq_of_entries_eq (entries_foldl_insert s1)

theorem get?_foldl_insert {m : KeyMap κ α} {es : List (κ × α)} {k : κ} {a : α}
    (h : (es.foldl (fun m e => m.insert e.1 e.2) m).get? k = some a) :
    (k, a) ∈ es ∨ m.get? k = some a := by
  induction es generalizing m with
  | nil => exact Or.inr h
  | cons e es ih =>
    rcases ih h with hm | hm
    · exact Or.inl (List.mem_cons_of_mem e hm)
    · rw [get?_insert] at hm
      split at hm
      · rename_i hk
        cases hm
        rw [TextKey.text_injective _ _ hk]
        exact Or.inl List.mem_cons_self
      · exact Or.inr hm

/-- What a map made from a list has under a key was in the list. -/
theorem mem_of_get?_ofList {es : List (κ × α)} {k : κ} {a : α}
    (h : (ofList es).get? k = some a) : (k, a) ∈ es := by
  rcases get?_foldl_insert h with hm | hm
  · exact hm
  · cases hm

/-! ## Sums over the values -/

theorem total_place (f : α → Int) {k : κ} (a : α) {es : List (κ × α)} (h : lookup k es = none) :
    total ((place k a es).map fun e => f e.2) = f a + total (es.map fun e => f e.2) := by
  induction es with
  | nil => rfl
  | cons e es ih =>
    obtain ⟨k', a'⟩ := e
    rw [lookup] at h
    by_cases hk : TextKey.text k = TextKey.text k'
    · rw [if_pos hk] at h
      cases h
    · rw [if_neg hk] at h
      rw [place]
      split
      · rfl
      · rw [List.map_cons, total_cons, ih h, List.map_cons, total_cons]
        omega

theorem total_insert (f : α → Int) {m : KeyMap κ α} {k : κ} (a : α) (h : m.get? k = none) :
    total ((m.insert k a).values.map f) = f a + total (m.values.map f) := by
  simp only [values, insert, List.map_map]
  exact total_place f a h

theorem total_map_of_lookup_none (f : α → Int) (g : α → α) {k : κ} {es : List (κ × α)}
    (h : ∀ e ∈ es, TextKey.text k ≠ TextKey.text e.1) :
    total ((es.map fun e => if TextKey.text k = TextKey.text e.1 then (e.1, g e.2)
      else e).map fun e => f e.2) =
      total (es.map fun e => f e.2) := by
  have e :
      (es.map fun e => if TextKey.text k = TextKey.text e.1 then (e.1, g e.2) else e) = es := by
    refine (List.map_congr_left fun e he => ?_).trans (List.map_id es)
    rw [if_neg (h e he), id]
  rw [e]

theorem total_map (f : α → Int) (g : α → α) {k : κ} {a : α} {es : List (κ × α)}
    (hs : es.Pairwise fun a b => TextKey.text a.1 < TextKey.text b.1) (h : lookup k es = some a) :
    total ((es.map fun e => if TextKey.text k = TextKey.text e.1 then (e.1, g e.2)
      else e).map fun e => f e.2) =
      total (es.map fun e => f e.2) - f a + f (g a) := by
  induction es with
  | nil => cases h
  | cons e es ih =>
    obtain ⟨k', a'⟩ := e
    obtain ⟨s1, s2⟩ := List.pairwise_cons.1 hs
    rw [lookup] at h
    by_cases hk : TextKey.text k = TextKey.text k'
    · rw [if_pos hk] at h
      cases h
      have none : ∀ e ∈ es, TextKey.text k ≠ TextKey.text e.1 := by
        intro e he h'
        have lt := s1 e he
        rw [← hk, h'] at lt
        exact String.lt_irrefl _ lt
      rw [List.map_cons, List.map_cons, if_pos hk, total_cons,
        total_map_of_lookup_none f g none, List.map_cons, total_cons]
      show f (g a) + _ = f a + _ - f a + f (g a)
      omega
    · rw [if_neg hk] at h
      rw [List.map_cons, List.map_cons, if_neg hk, total_cons, ih s2 h, List.map_cons, total_cons]
      omega

theorem total_modify (f : α → Int) (g : α → α) {m : KeyMap κ α} {k : κ} {a : α}
    (h : m.get? k = some a) :
    total ((m.modify k g).values.map f) = total (m.values.map f) - f a + f (g a) := by
  simp only [values, modify, List.map_map]
  have s := total_map f g m.ascending h
  rw [List.map_map] at s
  exact s

end Stockroom.KeyMap
