/-! Text keys and maps sorted by them. Texts are ordered by their code points, which is also the
byte order of their UTF-8 forms. A map's entries stand in strictly ascending key order, so two maps
that answer every look-up alike are equal. -/
namespace Stockroom
set_option autoImplicit false

/-- A type whose values are told apart and ordered by a text. -/
class TextKey (κ : Type) where
  text : κ → String
  text_injective : ∀ a b : κ, text a = text b → a = b

/-- Entries in strictly ascending order of their keys' texts. -/
structure KeyMap (κ α : Type) [TextKey κ] where
  entries : List (κ × α)
  ascending : entries.Pairwise fun a b => TextKey.text a.1 < TextKey.text b.1
  deriving DecidableEq

namespace KeyMap

variable {κ α : Type} [TextKey κ]

def empty : KeyMap κ α := ⟨[], .nil⟩

/-! ## Look-up and change, on the list of entries -/

def lookup (k : κ) : List (κ × α) → Option α
  | [] => none
  | (k', a) :: rest => if TextKey.text k = TextKey.text k' then some a else lookup k rest

/-- Puts the entry in its place; an entry with the same key gives way. -/
def place (k : κ) (a : α) : List (κ × α) → List (κ × α)
  | [] => [(k, a)]
  | (k', a') :: rest =>
    if TextKey.text k < TextKey.text k' then (k, a) :: (k', a') :: rest
    else if TextKey.text k = TextKey.text k' then (k, a) :: rest
    else (k', a') :: place k a rest

theorem mem_place {k : κ} {a : α} {e : κ × α} {es : List (κ × α)} (h : e ∈ place k a es) :
    e = (k, a) ∨ e ∈ es := by
  induction es with
  | nil => simpa [place] using h
  | cons e' es ih =>
    obtain ⟨k', a'⟩ := e'
    rw [place] at h
    split at h
    · simpa using h
    · split at h
      · rcases List.mem_cons.1 h with h | h
        · exact .inl h
        · exact .inr (List.mem_cons_of_mem _ h)
      · rcases List.mem_cons.1 h with h | h
        · exact .inr (h ▸ List.mem_cons_self)
        · rcases ih h with h | h
          · exact .inl h
          · exact .inr (List.mem_cons_of_mem _ h)

theorem ascending_place (k : κ) (a : α) {es : List (κ × α)}
    (h : es.Pairwise fun a b => TextKey.text a.1 < TextKey.text b.1) :
    (place k a es).Pairwise fun a b => TextKey.text a.1 < TextKey.text b.1 := by
  induction es with
  | nil => simp [place]
  | cons e' es ih =>
    obtain ⟨k', a'⟩ := e'
    obtain ⟨s1, s2⟩ := List.pairwise_cons.1 h
    rw [place]
    split
    · rename_i lt
      refine List.pairwise_cons.2 ⟨fun e he => ?_, h⟩
      rcases List.mem_cons.1 he with rfl | he
      · exact lt
      · exact String.lt_trans lt (s1 e he)
    · split
      · rename_i eq
        exact List.pairwise_cons.2 ⟨fun e he => eq ▸ s1 e he, s2⟩
      · rename_i nlt neq
        refine List.pairwise_cons.2 ⟨fun e he => ?_, ih s2⟩
        rcases mem_place he with rfl | he
        · rcases String.le_total (TextKey.text k) (TextKey.text k') with le | le
          · by_cases lt : TextKey.text k' < TextKey.text k
            · exact lt
            · exact absurd (String.le_antisymm le (String.not_lt.1 nlt)) neq
          · by_cases lt : TextKey.text k' < TextKey.text k
            · exact lt
            · exact absurd (String.le_antisymm (String.not_lt.1 lt) le) neq
        · exact s1 e he

theorem lookup_place_self (k : κ) (a : α) (es : List (κ × α)) :
    lookup k (place k a es) = some a := by
  induction es with
  | nil => simp [place, lookup]
  | cons e' es ih =>
    obtain ⟨k', a'⟩ := e'
    rw [place]
    split
    · simp [lookup]
    · split
      · simp [lookup]
      · rename_i _ neq
        simp [lookup, neq, ih]

theorem lookup_place_of_ne {k k' : κ} (a : α) (es : List (κ × α))
    (h : TextKey.text k' ≠ TextKey.text k) : lookup k' (place k a es) = lookup k' es := by
  induction es with
  | nil => simp [place, lookup, h]
  | cons e' es ih =>
    obtain ⟨k'', a''⟩ := e'
    rw [place]
    split
    · simp [lookup, h]
    · split
      · rename_i _ eq
        simp [lookup, ← eq, h]
      · simp [lookup, ih]

/-! ## Maps -/

def get? (m : KeyMap κ α) (k : κ) : Option α := lookup k m.entries

def insert (m : KeyMap κ α) (k : κ) (a : α) : KeyMap κ α :=
  ⟨place k a m.entries, ascending_place k a m.ascending⟩

/-- Changes the value under a key; a map without the key stays as it is. -/
def modify (m : KeyMap κ α) (k : κ) (f : α → α) : KeyMap κ α where
  entries := m.entries.map fun e => if TextKey.text k = TextKey.text e.1 then (e.1, f e.2) else e
  ascending := by
    refine List.pairwise_map.2 (m.ascending.imp fun {a b} h => ?_)
    split <;> split <;> exact h

def keys (m : KeyMap κ α) : List κ := m.entries.map Prod.fst

def values (m : KeyMap κ α) : List α := m.entries.map Prod.snd

def size (m : KeyMap κ α) : Nat := m.entries.length

/-- Later pairs replace earlier ones with the same key. -/
def ofList (es : List (κ × α)) : KeyMap κ α := es.foldl (fun m e => m.insert e.1 e.2) empty

@[simp] theorem get?_empty (k : κ) : (empty : KeyMap κ α).get? k = none := rfl

@[simp] theorem get?_insert_self (m : KeyMap κ α) (k : κ) (a : α) :
    (m.insert k a).get? k = some a := lookup_place_self k a m.entries

theorem get?_insert_of_ne (m : KeyMap κ α) {k k' : κ} (a : α)
    (h : TextKey.text k' ≠ TextKey.text k) : (m.insert k a).get? k' = m.get? k' :=
  lookup_place_of_ne a m.entries h

end KeyMap

end Stockroom
