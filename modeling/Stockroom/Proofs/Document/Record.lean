import Stockroom.Proofs.Document.Fields
import Stockroom.Proofs.Text.KeyMap

/-! A record is read back from its document, if its numbers are words of 64 bits; only the sign of
an amount that is a negative zero is lost. Conversely the numbers of a record that has been read are
words, so that writing and reading once more changes no more than such signs. -/
namespace Stockroom
set_option autoImplicit false

open Json (required optional)

/-! ## Lists of documents -/

theorem mapM_map_eq_some {α β : Type} {write : α → β} {read : β → Option α} {xs : List α}
    (h : ∀ x ∈ xs, read (write x) = some x) : (xs.map write).mapM read = some xs := by
  induction xs with
  | nil => rfl
  | cons x xs ih =>
    rw [List.map_cons, List.mapM_cons, h x List.mem_cons_self,
      ih fun y hy => h y (List.mem_cons_of_mem x hy)]
    rfl

theorem exists_of_mem_mapM {α β : Type} {read : β → Option α} {ys : List β} {xs : List α}
    (h : ys.mapM read = some xs) {x : α} (hx : x ∈ xs) : ∃ y ∈ ys, read y = some x := by
  induction ys generalizing xs with
  | nil =>
    cases h
    cases hx
  | cons y ys ih =>
    rw [List.mapM_cons] at h
    simp only [Option.bind_eq_bind, Option.bind_eq_some_iff] at h
    obtain ⟨a, ha, as, has, e⟩ := h
    cases e
    rcases List.mem_cons.1 hx with rfl | hx
    · exact ⟨y, List.mem_cons_self, ha⟩
    · obtain ⟨z, hz, hr⟩ := ih has hx
      exact ⟨z, List.mem_cons_of_mem y hz, hr⟩

/-! ## Reservations -/

theorem ReservationState.ofJson?_toJson (s : ReservationState) :
    ReservationState.ofJson? s.toJson = some s := by
  cases s <;> rfl

theorem ReleaseReason.ofJson?_toJson (x : ReleaseReason) :
    ReleaseReason.ofJson? x.toJson = some x := by
  cases x with
  | cancelled reason => cases reason <;> rfl
  | expired => rfl

theorem ReleaseReason.toJson_ne_null (x : ReleaseReason) : x.toJson ≠ .null := by
  cases x <;> nofun

/-- The quantities of a reservation are words. -/
structure Reservation.InWords (x : Reservation) : Prop where
  quantity : fitsInt64 x.quantity = true
  originalQuantity : fitsInt64 x.originalQuantity = true
  consumedQuantity : fitsInt64 x.consumedQuantity = true

namespace Reservation

variable {x : Reservation}

theorem ofJson?_toJson (h : x.InWords) : Reservation.ofJson? x.toJson = some x := by
  have s1 : Json.fields? fieldNames x.toJson = some x.toJson.members := rfl
  generalize hf : x.toJson.members = fs at s1
  have f1 : required "reservation_id" ReservationId.ofJson? fs = some x.id :=
    Json.required_of_member (hf ▸ rfl) x.id.ofJson?_toJson
  have f2 : required "state" ReservationState.ofJson? fs = some x.state :=
    Json.required_of_member (hf ▸ rfl) x.state.ofJson?_toJson
  have f3 : required "quantity" Json.int64? fs = some x.quantity :=
    Json.required_int64 (hf ▸ rfl) h.quantity
  have f4 : required "original_quantity" Json.int64? fs = some x.originalQuantity :=
    Json.required_int64 (hf ▸ rfl) h.originalQuantity
  have f5 : required "consumed_quantity" Json.int64? fs = some x.consumedQuantity :=
    Json.required_int64 (hf ▸ rfl) h.consumedQuantity
  have f6 : optional "notes" Json.text? fs = some x.notes := Json.optional_text (hf ▸ rfl)
  have f7 : required "created_at" Timestamp.ofJson? fs = some x.createdAt :=
    Json.required_of_member (hf ▸ rfl) x.createdAt.ofJson?_toJson
  have f8 : optional "expires_at" Timestamp.ofJson? fs = some x.expiresAt :=
    Json.optional_timestamp (hf ▸ rfl)
  have f9 : optional "closed_at" Timestamp.ofJson? fs = some x.closedAt :=
    Json.optional_timestamp (hf ▸ rfl)
  have f10 : optional "release_reason" ReleaseReason.ofJson? fs = some x.releaseReason :=
    Json.optional_of_member (hf ▸ rfl) fun reason _ =>
      ⟨reason.toJson_ne_null, reason.ofJson?_toJson⟩
  rw [Reservation.ofJson?, bind_of_eq_some s1, bind_of_eq_some f1,
    bind_of_eq_some f2, bind_of_eq_some f3, bind_of_eq_some f4, bind_of_eq_some f5,
    bind_of_eq_some f6, bind_of_eq_some f7, bind_of_eq_some f8,
    bind_of_eq_some f9, bind_of_eq_some f10]
  rfl

theorem inWords_of_ofJson? {j : Json} (h : Reservation.ofJson? j = some x) : x.InWords := by
  unfold Reservation.ofJson? at h
  obtain ⟨fs, -, h⟩ := Option.bind_eq_some_iff.1 h
  obtain ⟨id, -, h⟩ := Option.bind_eq_some_iff.1 h
  obtain ⟨state, -, h⟩ := Option.bind_eq_some_iff.1 h
  obtain ⟨quantity, h1, h⟩ := Option.bind_eq_some_iff.1 h
  obtain ⟨originalQuantity, h2, h⟩ := Option.bind_eq_some_iff.1 h
  obtain ⟨consumedQuantity, h3, h⟩ := Option.bind_eq_some_iff.1 h
  obtain ⟨notes, -, h⟩ := Option.bind_eq_some_iff.1 h
  obtain ⟨createdAt, -, h⟩ := Option.bind_eq_some_iff.1 h
  obtain ⟨expiresAt, -, h⟩ := Option.bind_eq_some_iff.1 h
  obtain ⟨closedAt, -, h⟩ := Option.bind_eq_some_iff.1 h
  obtain ⟨reason, -, h⟩ := Option.bind_eq_some_iff.1 h
  cases h
  exact ⟨Json.fitsInt64_of_required h1, Json.fitsInt64_of_required h2,
    Json.fitsInt64_of_required h3⟩

end Reservation

theorem reservationsOfJson?_toJson {m : KeyMap ReservationId Reservation}
    (h : ∀ k x, m.get? k = some x → x.InWords) :
    reservationsOfJson? (reservationsToJson m) = some m := by
  have s1 : (m.entries.map fun e => (e.1.text, e.2.toJson)).mapM
      (fun p => (Reservation.ofJson? p.2).map fun r => (ReservationId.mk p.1, r)) =
        some m.entries := by
    refine mapM_map_eq_some fun e he => ?_
    rw [Reservation.ofJson?_toJson (h e.1 e.2 (KeyMap.get?_eq_some_iff.2 he))]
    rfl
  rw [reservationsToJson, reservationsOfJson?, s1, Option.map_some, KeyMap.ofList_entries]

theorem inWords_of_reservationsOfJson? {m : KeyMap ReservationId Reservation} {j : Json}
    (h : reservationsOfJson? j = some m) (k : ReservationId) (x : Reservation)
    (hx : m.get? k = some x) : x.InWords := by
  cases j with
  | object members =>
    obtain ⟨es, hes, rfl⟩ := Option.map_eq_some_iff.1 h
    obtain ⟨p, -, hp⟩ := exists_of_mem_mapM hes (KeyMap.mem_of_get?_ofList hx)
    obtain ⟨y, hy, e⟩ := Option.map_eq_some_iff.1 hp
    cases e
    exact Reservation.inWords_of_ofJson? hy
  | _ => cases h

/-! ## Records -/

namespace StockRecord

/-- The numbers of a record are words. -/
structure InWords (r : StockRecord) : Prop where
  onHand : fitsInt64 r.onHand = true
  reserved : fitsInt64 r.reserved = true
  available : fitsInt64 r.available = true
  lowStock : fitsInt64 r.thresholds.lowStock = true
  restock : fitsInt64 r.thresholds.restock = true
  version : fitsUInt64 r.version = true
  reservations : ∀ k x, r.reservation? k = some x → x.InWords

/-- No amount of a record is a negative zero. -/
def IsCanonical (r : StockRecord) : Prop :=
  (∀ d ∈ r.unitCost, d.IsCanonical) ∧ ∀ d ∈ r.totalValue, d.IsCanonical

instance (r : StockRecord) : Decidable r.IsCanonical := inferInstanceAs (Decidable (_ ∧ _))

/-- The record of the same digits; amounts that are zero lose their sign. -/
def canonical (r : StockRecord) : StockRecord :=
  { r with
    unitCost := r.unitCost.map Decimal.canonical
    totalValue := r.totalValue.map Decimal.canonical }

variable {r : StockRecord}

theorem IsCanonical.canonical_eq (h : r.IsCanonical) : r.canonical = r := by
  rw [canonical, Decimal.map_canonical h.1, Decimal.map_canonical h.2]

theorem isCanonical_canonical (r : StockRecord) : r.canonical.IsCanonical := by
  have mapped (x : Option Decimal) : ∀ d ∈ x.map Decimal.canonical, d.IsCanonical := by
    intro d hd
    obtain ⟨c, -, rfl⟩ := Option.map_eq_some_iff.1 hd
    exact c.isCanonical_canonical
  exact ⟨mapped r.unitCost, mapped r.totalValue⟩

theorem sameWorth_map_canonical (x : Option Decimal) :
    sameWorth x (x.map Decimal.canonical) = true := by
  cases x with
  | none => rfl
  | some d => exact d.sameValue_canonical

theorem agrees_canonical (r : StockRecord) : r.agrees r.canonical = true := by
  rw [agrees, Bool.and_eq_true, Bool.and_eq_true]
  exact ⟨⟨sameWorth_map_canonical r.unitCost, sameWorth_map_canonical r.totalValue⟩,
    beq_self_eq_true _⟩

theorem ofJson?_toJson (h : r.InWords) : StockRecord.ofJson? r.toJson = some r.canonical := by
  have s1 : Json.fields? fieldNames r.toJson = some r.toJson.members := rfl
  generalize hf : r.toJson.members = fs at s1
  have f1 : required "id" RecordId.ofJson? fs = some r.id :=
    Json.required_of_member (hf ▸ rfl) r.id.ofJson?_toJson
  have m2 : Json.member? "product_id" fs = some (Json.ofOption ProductId.toJson r.productId) :=
    hf ▸ rfl
  have f2 : optional "product_id" ProductId.ofJson? fs = some r.productId :=
    Json.optional_of_member m2 fun id _ => ⟨nofun, id.ofJson?_toJson⟩
  have f3 : required "sku_code" SkuCode.ofJson? fs = some r.sku :=
    Json.required_of_member (hf ▸ rfl) r.sku.ofJson?_toJson
  have f4 : required "on_hand" Json.int64? fs = some r.onHand :=
    Json.required_int64 (hf ▸ rfl) h.onHand
  have f5 : required "reserved" Json.int64? fs = some r.reserved :=
    Json.required_int64 (hf ▸ rfl) h.reserved
  have f6 : required "available" Json.int64? fs = some r.available :=
    Json.required_int64 (hf ▸ rfl) h.available
  have f7 : required "thresholds" Thresholds.ofJson? fs = some r.thresholds :=
    Json.required_of_member (hf ▸ rfl) (Thresholds.ofJson?_toJson h.lowStock h.restock)
  have f8 : optional "unit_cost" Decimal.ofJson? fs = some (r.unitCost.map Decimal.canonical) :=
    Json.optional_decimal (hf ▸ rfl)
  have f9 : optional "total_value" Decimal.ofJson? fs = some (r.totalValue.map Decimal.canonical) :=
    Json.optional_decimal (hf ▸ rfl)
  have f10 : optional "location" Json.text? fs = some r.location := Json.optional_text (hf ▸ rfl)
  have f11 : required "is_active" Json.bool? fs = some r.isActive := Json.required_bool (hf ▸ rfl)
  have f12 : required "version" Json.uint64? fs = some r.version :=
    Json.required_uint64 (hf ▸ rfl) h.version
  have f13 : optional "last_restocked_at" Timestamp.ofJson? fs = some r.lastRestockedAt :=
    Json.optional_timestamp (hf ▸ rfl)
  have f14 : optional "next_restock_at" Timestamp.ofJson? fs = some r.nextRestockAt :=
    Json.optional_timestamp (hf ▸ rfl)
  have f15 : optional "created_at" Timestamp.ofJson? fs = some r.createdAt :=
    Json.optional_timestamp (hf ▸ rfl)
  have f16 : optional "updated_at" Timestamp.ofJson? fs = some r.updatedAt :=
    Json.optional_timestamp (hf ▸ rfl)
  have f17 : required "reservations" reservationsOfJson? fs = some r.reservations :=
    Json.required_of_member (hf ▸ rfl) (reservationsOfJson?_toJson h.reservations)
  have f18 : required "created" Json.bool? fs = some r.isCreated := Json.required_bool (hf ▸ rfl)
  rw [StockRecord.ofJson?, bind_of_eq_some s1, bind_of_eq_some f1,
    bind_of_eq_some f2, bind_of_eq_some f3, bind_of_eq_some f4, bind_of_eq_some f5,
    bind_of_eq_some f6, bind_of_eq_some f7, bind_of_eq_some f8, bind_of_eq_some f9,
    bind_of_eq_some f10, bind_of_eq_some f11, bind_of_eq_some f12, bind_of_eq_some f13,
    bind_of_eq_some f14, bind_of_eq_some f15, bind_of_eq_some f16,
    bind_of_eq_some f17, bind_of_eq_some f18]
  rfl

theorem inWords_of_ofJson? {j : Json} (h : StockRecord.ofJson? j = some r) : r.InWords := by
  unfold StockRecord.ofJson? at h
  obtain ⟨fs, -, h⟩ := Option.bind_eq_some_iff.1 h
  obtain ⟨id, -, h⟩ := Option.bind_eq_some_iff.1 h
  obtain ⟨productId, -, h⟩ := Option.bind_eq_some_iff.1 h
  obtain ⟨sku, -, h⟩ := Option.bind_eq_some_iff.1 h
  obtain ⟨onHand, h1, h⟩ := Option.bind_eq_some_iff.1 h
  obtain ⟨reserved, h2, h⟩ := Option.bind_eq_some_iff.1 h
  obtain ⟨available, h3, h⟩ := Option.bind_eq_some_iff.1 h
  obtain ⟨thresholds, h4, h⟩ := Option.bind_eq_some_iff.1 h
  obtain ⟨unitCost, -, h⟩ := Option.bind_eq_some_iff.1 h
  obtain ⟨totalValue, -, h⟩ := Option.bind_eq_some_iff.1 h
  obtain ⟨location, -, h⟩ := Option.bind_eq_some_iff.1 h
  obtain ⟨isActive, -, h⟩ := Option.bind_eq_some_iff.1 h
  obtain ⟨version, h5, h⟩ := Option.bind_eq_some_iff.1 h
  obtain ⟨lastRestockedAt, -, h⟩ := Option.bind_eq_some_iff.1 h
  obtain ⟨nextRestockAt, -, h⟩ := Option.bind_eq_some_iff.1 h
  obtain ⟨createdAt, -, h⟩ := Option.bind_eq_some_iff.1 h
  obtain ⟨updatedAt, -, h⟩ := Option.bind_eq_some_iff.1 h
  obtain ⟨reservations, h6, h⟩ := Option.bind_eq_some_iff.1 h
  obtain ⟨isCreated, -, h⟩ := Option.bind_eq_some_iff.1 h
  cases h
  obtain ⟨j1, h7⟩ := Json.exists_of_required h4
  obtain ⟨h8, h9⟩ := Thresholds.fitsInt64_of_ofJson? h7
  obtain ⟨j2, h10⟩ := Json.exists_of_required h6
  exact ⟨Json.fitsInt64_of_required h1, Json.fitsInt64_of_required h2,
    Json.fitsInt64_of_required h3, h8, h9, Json.fitsUInt64_of_required h5,
    inWords_of_reservationsOfJson? h10⟩

/-! ## There and back -/

/-- A record in words is read back from its document unchanged, unless an amount of it is a negative
zero. A record that has been read is in words; to write it and read it again drops the signs of its
zero amounts, which leaves their values and their scales, and to do so once more changes nothing. -/
theorem document_roundTrip :
    (∀ r : StockRecord, r.InWords → r.IsCanonical → StockRecord.ofJson? r.toJson = some r) ∧
      ∀ j r, StockRecord.ofJson? j = some r →
        StockRecord.ofJson? r.toJson = some r.canonical ∧
          StockRecord.ofJson? r.canonical.toJson = some r.canonical ∧
            r.agrees r.canonical = true ∧ (r.IsCanonical → r.canonical = r) := by
  refine ⟨fun r hw hc => ?_, fun j r h => ?_⟩
  · rw [ofJson?_toJson hw, hc.canonical_eq]
  · have hw := inWords_of_ofJson? h
    have hw' : r.canonical.InWords := inWords_of_ofJson? (ofJson?_toJson hw)
    refine ⟨ofJson?_toJson hw, ?_, r.agrees_canonical, IsCanonical.canonical_eq⟩
    rw [ofJson?_toJson hw', r.isCanonical_canonical.canonical_eq]

/-- A record with a hold that is held, one that was cancelled, and one that was
consumed in a leap second. -/
def shelfDocument : Json := .object [
  ("id", .text "550e8400-e29b-41d4-a716-446655440000"), ("product_id", .null),
  ("sku_code", .text " bolt "), ("on_hand", .integer 7), ("reserved", .integer 2),
  ("available", .integer 5), ("thresholds",
  .object [("low_stock", .integer 10), ("restock", .integer 20)]), ("unit_cost", .text "1.50"),
  ("total_value", .text "10.50"), ("location", .text ""),
  ("is_active", .bool true), ("version", .integer 5), ("created_at",
  .text "-0001-12-31T23:59:59.000000001Z"), ("updated_at", .text "2016-12-31T23:59:60.5Z"),
  ("created", .bool true), ("reservations", .object [
    ("b", .object [("reservation_id", .text "b"), ("state", .text "released"),
      ("quantity", .integer 0), ("original_quantity", .integer 1),
      ("consumed_quantity", .integer 0), ("created_at", .text "2016-12-31T12:00:00Z"),
      ("closed_at", .text "2016-12-31T13:00:00Z"),
      ("release_reason", .object [("kind", .text "cancelled"), ("reason", .text "late")])]),
    ("a", .object [("reservation_id", .text "a"), ("state", .text "held"), ("quantity", .integer 2),
      ("original_quantity", .integer 3), ("consumed_quantity", .integer 0),
        ("created_at", .text "2016-12-31T12:00:00Z")]),
    ("c", .object [("reservation_id", .text "c"), ("state", .text "consumed"),
      ("quantity", .integer 0), ("original_quantity", .integer 3),
      ("consumed_quantity", .integer 3), ("created_at", .text "2016-12-31T12:00:00Z"),
      ("closed_at", .text "2016-12-31T23:59:60.5Z")])])]

theorem document_roundTrip_shelf :
    ∃ r, StockRecord.ofJson? shelfDocument = some r ∧ r.InWords ∧ r.IsCanonical ∧
      r.reservations.keys.map ReservationId.text = ["a", "b", "c"] ∧
      StockRecord.ofJson? r.toJson = some r ∧ r.canonical = r := by
  have readable : (StockRecord.ofJson? shelfDocument).any (fun r =>
      decide (r.IsCanonical ∧
        r.reservations.keys.map ReservationId.text = ["a", "b", "c"])) = true := by
    decide +kernel
  obtain ⟨r, hr, h⟩ := (Option.any_eq_true _ _).1 readable
  obtain ⟨hc, hk⟩ := of_decide_eq_true h
  have hw : r.InWords := inWords_of_ofJson? hr
  obtain ⟨written, read⟩ := document_roundTrip
  obtain ⟨-, -, -, same⟩ := read shelfDocument r hr
  exact ⟨r, hr, hw, hc, hk, written r hw hc, same hc⟩

/-- A cost that is less than any scale can tell, and below zero. -/
def negligibleDocument : Json := .object [
  ("id", .text "550e8400-e29b-41d4-a716-446655440000"),
  ("product_id", .text "67e55044-10b1-426f-9247-bb680e5fe0c8"), ("sku_code", .text "SKU-1"),
  ("on_hand", .integer 3), ("reserved", .integer 0), ("available", .integer 3), ("thresholds",
  .object [("low_stock", .integer 10), ("restock", .integer 20)]), ("unit_cost", .text "-0.4e-28"),
  ("total_value", .text "0.00"), ("is_active", .bool true), ("version", .integer 0),
  ("created_at", .text "2024-01-01T00:00:00Z"), ("updated_at", .text "2024-01-01T00:00:00Z"),
  ("reservations", .object []), ("created", .bool true)]

/-- A number with an exponent keeps its sign when it is rounded to zero, but its
digits are read without it. -/
theorem not_roundTrip_negligible :
    ∃ r s, StockRecord.ofJson? negligibleDocument = some r ∧
      StockRecord.ofJson? r.toJson = some s ∧ s ≠ r ∧
      r.unitCost.map Decimal.text = some "-0.0000000000000000000000000000" ∧
      s.unitCost.map Decimal.text = some "0.0000000000000000000000000000" := by
  have readable : (StockRecord.ofJson? negligibleDocument).any (fun r =>
      decide (r.canonical ≠ r ∧
        r.unitCost.map Decimal.text = some "-0.0000000000000000000000000000" ∧
        r.canonical.unitCost.map Decimal.text = some "0.0000000000000000000000000000")) = true := by
    decide +kernel
  obtain ⟨r, hr, h⟩ := (Option.any_eq_true _ _).1 readable
  obtain ⟨h1, h2, h3⟩ := of_decide_eq_true h
  exact ⟨r, r.canonical, hr, ofJson?_toJson (inWords_of_ofJson? hr), h1, h2, h3⟩

end StockRecord

end Stockroom
