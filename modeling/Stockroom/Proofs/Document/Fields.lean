import Stockroom.Document.Movement
import Stockroom.Proofs.Identifier.Uuid
import Stockroom.Proofs.Numeric.Decimal
import Stockroom.Proofs.Time.Timestamp

/-! Parts of documents. Every scalar is read back from what it is written as, but for the sign of
a negative zero, and so is a field that a document has under its name. Conversely a number that
has been read is a word. -/
namespace Stockroom
set_option autoImplicit false

/-! ## Scalars -/

theorem Uuid.ofJson?_toJson (u : Uuid) : Uuid.ofJson? u.toJson = some u := by
  show (Uuid.parse (String.ofList u.chars).toList).toOption = some u
  rw [String.toList_ofList, u.parse_chars]
  rfl

theorem RecordId.ofJson?_toJson (i : RecordId) : RecordId.ofJson? i.toJson = some i := by
  rw [ofJson?, toJson, Uuid.ofJson?_toJson]
  rfl

theorem ProductId.ofJson?_toJson (i : ProductId) : ProductId.ofJson? i.toJson = some i := by
  rw [ofJson?, toJson, Uuid.ofJson?_toJson]
  rfl

theorem SkuCode.ofJson?_toJson (k : SkuCode) : SkuCode.ofJson? k.toJson = some k := rfl

theorem ReservationId.ofJson?_toJson (k : ReservationId) :
    ReservationId.ofJson? k.toJson = some k := rfl

theorem Timestamp.ofJson?_toJson (t : Timestamp) : Timestamp.ofJson? t.toJson = some t := by
  rw [ofJson?, toJson, Json.text?, Option.bind_eq_bind, Option.bind_some, parse?_text]

theorem Decimal.ofJson?_toJson (d : Decimal) : Decimal.ofJson? d.toJson = some d.canonical := by
  rw [toJson, ofJson?, parse?_text]

/-! ## Fields -/

theorem bind_of_eq_some {α β : Type} {x : Option α} {a : α} (h : x = some a) (f : α → Option β) :
    (x >>= f) = f a := by
  rw [h]
  rfl

namespace Json

/-- The members of an object. -/
def members : Json → Fields
  | .object ms => ms
  | _ => []

theorem int64?_integer {n : Int} (h : fitsInt64 n = true) : int64? (.integer n) = some n := by
  rw [int64?, if_pos h]

theorem uint64?_ofNat {n : Nat} (h : fitsUInt64 n = true) : uint64? (ofNat n) = some n := by
  rw [ofNat, uint64?, if_pos h, Int.toNat_natCast]

variable {α : Type} {name : String} {read : Json → Option α} {fs : Fields}

theorem required_of_member {j : Json} {a : α} (hm : member? name fs = some j)
    (hr : read j = some a) : required name read fs = some a := by
  rw [required, hm]
  exact hr

/-- A part that is written as null when absent, and read as `g` makes of it. -/
theorem optional_map_of_member {write : α → Json} {g : α → α} {x : Option α}
    (hm : member? name fs = some (ofOption write x))
    (hr : ∀ a ∈ x, write a ≠ .null ∧ read (write a) = some (g a)) :
    optional name read fs = some (x.map g) := by
  rw [optional, hm]
  cases x with
  | none => rfl
  | some a =>
    obtain ⟨h1, h2⟩ := hr a rfl
    rw [ofOption]
    split
    · rename_i e
      cases e
    · rename_i e
      exact absurd (Option.some.inj e) h1
    · rename_i e
      cases e
      rw [h2]
      rfl

theorem optional_of_member {write : α → Json} {x : Option α}
    (hm : member? name fs = some (ofOption write x))
    (hr : ∀ a ∈ x, write a ≠ .null ∧ read (write a) = some a) : optional name read fs = some x := by
  have s1 : optional name read fs = some (x.map id) := optional_map_of_member hm hr
  rw [Option.map_id] at s1
  exact s1

theorem required_int64 {n : Int} (hm : member? name fs = some (.integer n))
    (hn : fitsInt64 n = true) : required name int64? fs = some n :=
  required_of_member hm (int64?_integer hn)

theorem required_uint64 {n : Nat} (hm : member? name fs = some (ofNat n))
    (hn : fitsUInt64 n = true) : required name uint64? fs = some n :=
  required_of_member hm (uint64?_ofNat hn)

theorem required_bool {b : Bool} (hm : member? name fs = some (.bool b)) :
    required name bool? fs = some b :=
  required_of_member hm rfl

theorem optional_text {x : Option String} (hm : member? name fs = some (ofOption .text x)) :
    optional name text? fs = some x :=
  optional_of_member hm fun _ _ => ⟨nofun, rfl⟩

theorem optional_timestamp {x : Option Timestamp}
    (hm : member? name fs = some (ofOption Timestamp.toJson x)) :
    optional name Timestamp.ofJson? fs = some x :=
  optional_of_member hm fun t _ => ⟨nofun, t.ofJson?_toJson⟩

theorem optional_decimal {x : Option Decimal}
    (hm : member? name fs = some (ofOption Decimal.toJson x)) :
    optional name Decimal.ofJson? fs = some (x.map Decimal.canonical) :=
  optional_map_of_member hm fun d _ => ⟨nofun, d.ofJson?_toJson⟩

/-! ## Fields with names of their own -/

theorem member?_of_mem (h : (fs.map Prod.fst).Nodup) {m : String × Json} (hm : m ∈ fs) :
    member? m.1 fs = some m.2 := by
  induction fs with
  | nil => cases hm
  | cons n fs ih =>
    rw [List.map_cons, List.nodup_cons] at h
    rw [member?]
    rcases List.mem_cons.1 hm with rfl | hm
    · exact if_pos rfl
    · have other : n.1 ≠ m.1 := fun e => h.1 (e ▸ List.mem_map_of_mem hm)
      rw [if_neg other]
      exact ih h.2 hm

theorem occurrences_le_one (h : (fs.map Prod.fst).Nodup) (name : String) :
    occurrences name fs ≤ 1 := by
  have s1 : occurrences name fs = (fs.map Prod.fst).count name := by
    rw [occurrences, List.count_eq_countP, List.countP_map]
    rfl
  rw [s1]
  exact List.nodup_iff_count.1 h name

theorem fields?_object (h : (fs.map Prod.fst).Nodup) (names : List String) :
    fields? names (.object fs) = some fs := by
  have s1 : (names.all fun n => occurrences n fs ≤ 1) = true :=
    List.all_eq_true.2 fun n _ => decide_eq_true (occurrences_le_one h n)
  rw [fields?, if_pos s1]

/-! ## What has been read -/

theorem exists_of_required {a : α} (h : required name read fs = some a) : ∃ j, read j = some a := by
  obtain ⟨j, -, hj⟩ := Option.bind_eq_some_iff.1 h
  exact ⟨j, hj⟩

theorem fitsInt64_of_required {n : Int}
    (h : required name int64? fs = some n) : fitsInt64 n = true := by
  obtain ⟨j, hj⟩ := exists_of_required h
  cases j with
  | integer m =>
    rw [int64?] at hj
    split at hj
    · rename_i hm
      cases hj
      exact hm
    · cases hj
  | _ => cases hj

theorem fitsUInt64_of_required {n : Nat} (h : required name uint64? fs = some n) :
    fitsUInt64 n = true := by
  obtain ⟨j, hj⟩ := exists_of_required h
  cases j with
  | integer m =>
    rw [uint64?] at hj
    split at hj
    · rename_i hm
      have h0 : 0 ≤ m := by
        rw [fitsUInt64, Bool.and_eq_true, decide_eq_true_iff] at hm
        exact hm.1
      cases hj
      rw [Int.toNat_of_nonneg h0]
      exact hm
    · cases hj
  | _ => cases hj

end Json

/-! ## Thresholds -/

theorem Thresholds.ofJson?_toJson {t : Thresholds} (h1 : fitsInt64 t.lowStock = true)
    (h2 : fitsInt64 t.restock = true) : Thresholds.ofJson? t.toJson = some t := by
  have s1 : Json.fields? fieldNames t.toJson =
      some [("low_stock", .integer t.lowStock), ("restock", .integer t.restock)] := rfl
  rw [ofJson?, s1]
  simp [Json.required, Json.member?, Json.int64?_integer h1, Json.int64?_integer h2]

theorem Thresholds.fitsInt64_of_ofJson? {t : Thresholds} {j : Json}
    (h : Thresholds.ofJson? j = some t) :
    fitsInt64 t.lowStock = true ∧ fitsInt64 t.restock = true := by
  simp only [ofJson?, Option.bind_eq_bind, Option.bind_eq_some_iff] at h
  obtain ⟨fs, -, low, h1, restock, h2, e⟩ := h
  cases e
  exact ⟨Json.fitsInt64_of_required h1, Json.fitsInt64_of_required h2⟩

end Stockroom
