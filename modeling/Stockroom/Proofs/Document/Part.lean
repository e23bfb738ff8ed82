import Stockroom.Proofs.Document.Fields

/-! What the documents of commands and events have in common. A part is read back from all fields
that have it among them, if its numbers are words of 64 bits and its decimals no negative zeros. A
document with a moment is then read back if its part is, and is read under no other tag. -/
namespace Stockroom
set_option autoImplicit false

/-- The numbers of an item have a place in a document. -/
def ItemDetails.IsWritable (d : ItemDetails) : Prop :=
  fitsInt64 d.onHand = true ∧ fitsInt64 d.thresholds.lowStock = true ∧
    fitsInt64 d.thresholds.restock = true ∧ ∀ cost ∈ d.unitCost, cost.IsCanonical

namespace Part

variable {β : Type}

/-- The fields of a part have the names that it says they have, and that of the
moment is not among them. -/
structure IsProper (p : Part β) : Prop where
  names_eq : ∀ b, (p.fields b).map Prod.fst = p.names
  distinct : (p.names ++ ["occurred_at"]).Nodup

theorem IsProper.distinct_fields {p : Part β} (h : p.IsProper) (b : β) (t : Timestamp) :
    ((p.fields b ++ [momentField t]).map Prod.fst).Nodup := by
  rw [List.map_append, h.names_eq]
  exact h.distinct

/-- What is written of `b` is read back as `b`, whatever other fields there are. -/
def Restores (p : Part β) (b : β) : Prop :=
  ∀ fs, (∀ m ∈ p.fields b, Json.member? m.1 fs = some m.2) → p.ofFields? fs = some b

theorem requiredId_of_member {id : ReservationId} {fs : Json.Fields}
    (hm : Json.member? "reservation_id" fs = some id.toJson) : requiredId fs = some id :=
  Json.required_of_member hm id.ofJson?_toJson

/-! ## Single parts -/

theorem isProper_nothing : nothing.IsProper := ⟨fun _ => rfl, by decide⟩

theorem restores_nothing : nothing.Restores () := fun _ _ => rfl

theorem isProper_item : (item "initial_on_hand").IsProper := ⟨fun _ => rfl, by decide⟩

theorem restores_item {d : ItemDetails} (h : d.IsWritable) (quantityName : String) :
    (item quantityName).Restores d := by
  obtain ⟨h1, h2, h3, h4⟩ := h
  intro fs hm
  simp only [item, List.forall_mem_cons] at hm
  obtain ⟨m1, m2, m3, m4, m5, m6, -⟩ := hm
  have f1 : Json.required "product_id" ProductId.ofJson? fs = some d.productId :=
    Json.required_of_member m1 d.productId.ofJson?_toJson
  have f2 : Json.required quantityName Json.int64? fs = some d.onHand := Json.required_int64 m2 h1
  have f3 : Json.required "thresholds" Thresholds.ofJson? fs = some d.thresholds :=
    Json.required_of_member m3 (Thresholds.ofJson?_toJson h2 h3)
  have f4 : Json.optional "unit_cost" Decimal.ofJson? fs =
      some (d.unitCost.map Decimal.canonical) :=
    Json.optional_decimal m4
  have f5 : Json.optional "location" Json.text? fs = some d.location := Json.optional_text m5
  have f6 : Json.optional "next_restock_at" Timestamp.ofJson? fs = some d.nextRestockAt :=
    Json.optional_timestamp m6
  rw [Decimal.map_canonical h4] at f4
  simp only [item, f1, f2, f3, f4, f5, f6, Option.bind_eq_bind, Option.bind_some]
  rfl

theorem isProper_record : record.IsProper := ⟨fun _ => rfl, by decide⟩

theorem restores_record {d : ItemDetails} (h : d.IsWritable) (id : RecordId) (sku : SkuCode) :
    record.Restores (id, sku, d) := by
  intro fs hm
  simp only [record, List.forall_mem_cons] at hm
  obtain ⟨m1, m2, m3⟩ := hm
  have f1 : Json.required "record_id" RecordId.ofJson? fs = some id :=
    Json.required_of_member m1 id.ofJson?_toJson
  have f2 : Json.required "sku_code" SkuCode.ofJson? fs = some sku :=
    Json.required_of_member m2 sku.ofJson?_toJson
  have f3 : (item "on_hand").ofFields? fs = some d := restores_item h "on_hand" fs m3
  simp [record, f1, f2, f3]

variable {id : ReservationId} {quantity : Int}

theorem isProper_units : units.IsProper := ⟨fun _ => rfl, by decide⟩

theorem restores_units (h : fitsInt64 quantity = true) : units.Restores (id, quantity) := by
  intro fs hm
  simp only [units, idField, List.forall_mem_cons] at hm
  obtain ⟨m1, m2, -⟩ := hm
  simp [units, requiredId_of_member m1, Json.required_int64 m2 h]

theorem isProper_hold : hold.IsProper := ⟨fun _ => rfl, by decide⟩

theorem restores_hold (h : fitsInt64 quantity = true) (notes : Option String)
    (expiresAt : Option Timestamp) :
    hold.Restores (id, quantity, notes, expiresAt) := by
  intro fs hm
  simp only [hold, idField, List.forall_mem_cons] at hm
  obtain ⟨m1, m2, m3, m4, -⟩ := hm
  simp [hold, requiredId_of_member m1, Json.required_int64 m2 h, Json.optional_text m3,
    Json.optional_timestamp m4]

theorem isProper_giveBack : giveBack.IsProper := ⟨fun _ => rfl, by decide⟩

theorem restores_giveBack (h : fitsInt64 quantity = true) (why : Option String) :
    giveBack.Restores (id, quantity, why) := by
  intro fs hm
  simp only [giveBack, idField, List.forall_mem_cons] at hm
  obtain ⟨m1, m2, m3, -⟩ := hm
  simp [giveBack, requiredId_of_member m1, Json.required_int64 m2 h, Json.optional_text m3]

theorem isProper_shipment : shipment.IsProper := ⟨fun _ => rfl, by decide⟩

theorem restores_shipment {held : Int} (h : fitsInt64 quantity = true)
    (hh : fitsInt64 held = true) :
    shipment.Restores (id, quantity, held) := by
  intro fs hm
  simp only [shipment, idField, List.forall_mem_cons] at hm
  obtain ⟨m1, m2, m3, -⟩ := hm
  simp [shipment, requiredId_of_member m1, Json.required_int64 m2 h, Json.required_int64 m3 hh]

theorem isProper_correction : correction.IsProper := ⟨fun _ => rfl, by decide⟩

theorem restores_correction {delta : Int} (h : fitsInt64 delta = true)
    (why reference : Option String) :
    correction.Restores (delta, why, reference) := by
  intro fs hm
  simp only [correction, List.forall_mem_cons] at hm
  obtain ⟨m1, m2, m3, -⟩ := hm
  simp [correction, Json.required_int64 m1 h, Json.optional_text m2, Json.optional_text m3]

theorem isProper_reason : reason.IsProper := ⟨fun _ => rfl, by decide⟩

theorem restores_reason (why : Option String) : reason.Restores why := by
  intro fs hm
  simp only [reason, List.forall_mem_cons] at hm
  exact Json.optional_text hm.1

/-! ## Kinds -/

variable {α : Type} {kinds : List (Kind α)} {tag : String} {t u : Timestamp} {a : α}

/-- What is written as a part, and made of it again where it is filed, is read back. -/
theorem IsProper.timed?_timed {p : Part β} {b : β} {make : β → α} {fields : Json.Fields}
    (h : p.IsProper) (hr : p.Restores b) (written : p.fields b = fields)
    (filed : kinds.find? (fun k => k.tag = tag) = some (p.kind tag make)) (made : make b = a) :
    timed? kinds (timed tag fields t) = some (a, t) := by
  subst written made
  have distinct := h.distinct_fields b t
  have s1 := Json.fields?_object distinct (p.names ++ ["occurred_at"])
  have s2 : p.ofFields? (p.fields b ++ [momentField t]) = some b := hr _ fun m hm =>
    Json.member?_of_mem distinct (List.mem_append_left _ hm)
  have s3 : requiredMoment (p.fields b ++ [momentField t]) = some t :=
    Json.required_of_member
      (Json.member?_of_mem distinct (List.mem_append_right _ (List.mem_singleton_self _)))
      t.ofJson?_toJson
  simp [timed?, timed, Json.choice, Json.choice?, filed, kind, s1, s2, s3]

/-- What a part is read as has the tag under which the part stands, if
everything made of the part has. -/
theorem tag_kind {p : Part β} {make : β → α} {tagOf : α → String} (h : ∀ b, tagOf (make b) = tag) :
    ∀ fs a, (p.kind tag make).ofFields? fs = some a → tagOf a = (p.kind tag make).tag := by
  intro fs a ha
  obtain ⟨b, -, rfl⟩ := Option.map_eq_some_iff.1 ha
  exact h b

/-- No document is read under another tag. -/
theorem tag_eq_of_timed? {tagOf : α → String} {fields : Json.Fields}
    (hk : ∀ k ∈ kinds, ∀ fs a, k.ofFields? fs = some a → tagOf a = k.tag)
    (h : timed? kinds (timed tag fields t) = some (a, u)) : tagOf a = tag := by
  unfold timed? at h
  obtain ⟨c, h1, h⟩ := Option.bind_eq_some_iff.1 h
  cases h1
  obtain ⟨k, h2, h⟩ := Option.bind_eq_some_iff.1 h
  obtain ⟨fs, -, h⟩ := Option.bind_eq_some_iff.1 h
  obtain ⟨b, h3, h⟩ := Option.bind_eq_some_iff.1 h
  obtain ⟨v, -, h⟩ := Option.bind_eq_some_iff.1 h
  cases h
  have s1 := List.find?_some h2
  rw [hk k (List.mem_of_find?_eq_some h2) fs a h3]
  exact of_decide_eq_true s1

end Part

end Stockroom
