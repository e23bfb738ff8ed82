import Stockroom.Identifier.Keys
import Stockroom.Proofs.Identifier.Uuid
import Stockroom.Proofs.Text.Trim

/-! Identifiers have one written form each. A universally unique identifier is read from four forms,
which all say the same as the lower-case hyphenated one that is written. A key is the part of a text
between the blanks around it, and blanks around a key make no difference to it. -/
namespace Stockroom
set_option autoImplicit false

open Uuid (IsDigits Spelling hyphenate groups)

/-- How identifiers are read and written that are universally unique. -/
structure ReadsForms {ι : Type} (parse : String → Except IdentifierFault ι)
    (text : ι → String) : Prop where
  /-- The four forms of 32 digits are read, and nothing else. -/
  accepted_iff : ∀ s, (∃ i, parse s = .ok i) ↔ ∃ ds, IsDigits ds ∧ Spelling ds s.toList
  /-- The digits are written in hyphenated groups and in lower case. -/
  text_eq : ∀ s i ds, parse s = .ok i → IsDigits ds → Spelling ds s.toList →
    (text i).toList = hyphenate groups (ds.map Char.toLower)
  parse_text : ∀ i, parse (text i) = .ok i
  /-- Form and case make no difference, and the digits make all of it. -/
  same_iff : ∀ s t i j ds es, parse s = .ok i → parse t = .ok j → IsDigits ds →
    Spelling ds s.toList → IsDigits es → Spelling es t.toList →
    (i = j ↔ ds.map Char.toLower = es.map Char.toLower)
  text_injective : ∀ i j, text i = text j → i = j

/-- How keys are read that are texts. -/
structure ReadsKeys {κ : Type} (fault : IdentifierFault) (parse : String → Except IdentifierFault κ)
    (text : κ → String) : Prop where
  error_iff : ∀ s e, parse s = .error e ↔ e = fault ∧ Text.IsBlankText s.toList
  trimmed : ∀ s k, parse s = .ok k → text k ≠ "" ∧ Text.IsTrimmed (text k).toList
  within : ∀ s k, parse s = .ok k → ∃ before after,
    Text.IsBlankText before.toList ∧ Text.IsBlankText after.toList ∧
    s = before ++ text k ++ after
  parse_text : ∀ s k, parse s = .ok k → parse (text k) = .ok k
  blanks : ∀ s k before after, parse s = .ok k → Text.IsBlankText before.toList →
    Text.IsBlankText after.toList → parse (before ++ text k ++ after) = .ok k

/-! ## Digits -/

section Forms

variable {ι : Type} {parse : String → Except IdentifierFault ι} {uuid : ι → Uuid}

/-- What wraps a universally unique identifier is read and written as that is. -/
theorem readsForms (injective : ∀ i j, uuid i = uuid j → i = j) (surjective : ∀ u, ∃ i, uuid i = u)
    (reads : ∀ s i, parse s = .ok i ↔ Uuid.parse s.toList = .ok (uuid i)) :
    ReadsForms parse fun i => (uuid i).text := by
  have spelled {s : String} {i : ι} {ds : List Char} (h : parse s = .ok i) (hd : IsDigits ds)
      (hs : Spelling ds s.toList) :
      (uuid i).IsCased ds := by
    obtain ⟨u, hu⟩ := Uuid.isDigits_iff.1 hd
    have s1 := Uuid.parse_of_spelling hu hs
    rw [(reads s i).1 h] at s1
    cases s1
    exact hu
  have again (i : ι) : parse (uuid i).text = .ok i := by
    rw [reads, Uuid.text, String.toList_ofList, Uuid.parse_chars]
  constructor
  case accepted_iff =>
    intro s
    constructor
    · rintro ⟨i, h⟩
      obtain ⟨ds, hu, hs⟩ := Uuid.parse_eq_ok_iff.1 ((reads s i).1 h)
      exact ⟨ds, Uuid.isDigits_iff.2 ⟨_, hu⟩, hs⟩
    · rintro ⟨ds, hd, hs⟩
      obtain ⟨u, hu⟩ := Uuid.isDigits_iff.1 hd
      obtain ⟨i, rfl⟩ := surjective u
      exact ⟨i, (reads s i).2 (Uuid.parse_of_spelling hu hs)⟩
  case text_eq =>
    intro s i ds h hd hs
    rw [Uuid.text, String.toList_ofList, Uuid.chars_eq_hyphenate, ← spelled h hd hs]
  case parse_text => exact again
  case same_iff =>
    intro s t i j ds es hi hj hd hs he ht
    rw [← (spelled hi hd hs).unique (spelled hj he ht)]
    exact ⟨congrArg uuid, injective i j⟩
  case text_injective =>
    -- what is written alike is read alike
    intro i j same
    have s1 := again i
    rw [same, again j] at s1
    exact (Except.ok.inj s1).symm

end Forms

/-! ## Keys -/

section Keys

variable {κ : Type} {fault : IdentifierFault} {parse : String → Except IdentifierFault κ}
  {text : κ → String}

theorem toList_trimmed (s : String) : (Text.trimmed s).toList = Text.trim s.toList :=
  String.toList_ofList

theorem trimmed_eq_empty_iff {s : String} : Text.trimmed s = "" ↔ Text.IsBlankText s.toList := by
  rw [← String.toList_inj, toList_trimmed]
  exact Text.trim_eq_nil_iff

theorem trimmed_append {before after s : String} (hb : Text.IsBlankText before.toList)
    (ha : Text.IsBlankText after.toList) (h : Text.IsTrimmed s.toList) :
    Text.trimmed (before ++ s ++ after) = s := by
  rw [← String.toList_inj, toList_trimmed, String.toList_append, String.toList_append]
  exact Text.trim_eq hb ha h

theorem exists_trimmed (s : String) :
    ∃ before after, Text.IsBlankText before.toList ∧ Text.IsBlankText after.toList ∧
    s = before ++ Text.trimmed s ++ after ∧ Text.IsTrimmed (Text.trimmed s).toList := by
  obtain ⟨before, after, hb, ha, e, ht⟩ := Text.exists_trim s.toList
  rw [toList_trimmed]
  refine ⟨.ofList before, .ofList after, ?_, ?_, ?_, ht⟩
  · rwa [String.toList_ofList]
  · rwa [String.toList_ofList]
  · rw [← String.toList_inj, String.toList_append, String.toList_append,
      String.toList_ofList, String.toList_ofList, toList_trimmed, ← e]

/-- What holds a text that is not blank is read as trimming leaves it. -/
theorem readsKeys {make : String → κ} (text_make : ∀ s, text (make s) = s)
    (reads : ∀ s, parse s = if Text.trimmed s = "" then .error fault
      else .ok (make (Text.trimmed s))) : ReadsKeys fault parse text := by
  have of_ok {s : String} {k : κ} (h : parse s = .ok k) : Text.trimmed s ≠ "" ∧
      k = make (Text.trimmed s) := by
    rw [reads] at h
    split at h
    · cases h
    · cases h
      exact ⟨‹_›, rfl⟩
  have blanks {s before after : String} {k : κ} (h : parse s = .ok k)
      (hb : Text.IsBlankText before.toList) (ha : Text.IsBlankText after.toList) :
      parse (before ++ text k ++ after) = .ok k := by
    obtain ⟨some, rfl⟩ := of_ok h
    obtain ⟨-, -, -, -, -, ht⟩ := exists_trimmed s
    rw [text_make, reads, trimmed_append hb ha ht, if_neg some]
  constructor
  case error_iff =>
    intro s e
    rw [reads, ← trimmed_eq_empty_iff]
    split
    · rename_i none
      rw [Except.error.injEq, eq_comm]
      exact (and_iff_left none).symm
    · rename_i some
      exact iff_of_false nofun fun h => some h.2
  case trimmed =>
    intro s k h
    obtain ⟨some, rfl⟩ := of_ok h
    obtain ⟨-, -, -, -, -, ht⟩ := exists_trimmed s
    rw [text_make]
    exact ⟨some, ht⟩
  case within =>
    intro s k h
    obtain ⟨-, rfl⟩ := of_ok h
    obtain ⟨before, after, hb, ha, e, -⟩ := exists_trimmed s
    rw [text_make]
    exact ⟨before, after, hb, ha, e⟩
  case parse_text =>
    intro s k h
    have none : Text.IsBlankText "".toList := List.forall_mem_nil _
    have s1 := blanks h none none
    rwa [String.empty_append, String.append_empty] at s1
  case blanks =>
    intro s k before after h hb ha
    exact blanks h hb ha

end Keys

/-- Record and product identifiers are read from four forms and written in one, and the keys of
units and of reservations are read between blanks. -/
theorem reads_identifiers :
    ReadsForms RecordId.parse RecordId.text ∧ ReadsForms ProductId.parse ProductId.text ∧
      ReadsKeys .blankSku SkuCode.parse SkuCode.text ∧
      ReadsKeys .blankReservation ReservationId.parse ReservationId.text := by
  refine ⟨readsForms ?_ (fun u => ⟨⟨u⟩, rfl⟩) fun s i => ?_,
    readsForms ?_ (fun u => ⟨⟨u⟩, rfl⟩) fun s i => ?_, readsKeys (fun _ => rfl) fun _ => rfl,
    readsKeys (fun _ => rfl) fun _ => rfl⟩
  · rintro ⟨u⟩ ⟨v⟩ rfl
    rfl
  · obtain ⟨u⟩ := i
    unfold RecordId.parse
    cases Uuid.parse s.toList <;> simp
  · rintro ⟨u⟩ ⟨v⟩ rfl
    rfl
  · obtain ⟨u⟩ := i
    unfold ProductId.parse
    cases Uuid.parse s.toList <;> simp

end Stockroom
