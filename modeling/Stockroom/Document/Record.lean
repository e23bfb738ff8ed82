import Stockroom.Document.Scalars
import Stockroom.Record.Status

/-! Documents of stock records and their parts. Every field is written, an absent one as null. -/
namespace Stockroom
set_option autoImplicit false

open Json (bool? text? int64? uint64? required optional ofOption)

/-! ## Thresholds -/

def Thresholds.fieldNames : List String := ["low_stock", "restock"]

def Thresholds.toJson (t : Thresholds) : Json :=
  .object [("low_stock", .integer t.lowStock), ("restock", .integer t.restock)]

def Thresholds.ofJson? (j : Json) : Option Thresholds := do
  let fs ← Json.fields? Thresholds.fieldNames j
  return ⟨← required "low_stock" int64? fs, ← required "restock" int64? fs⟩

/-! ## Reservations -/

def ReservationState.toJson (s : ReservationState) : Json := .text s.name

def ReservationState.ofName? (s : String) : Option ReservationState :=
  if s = "held" then some .held
  else if s = "consumed" then some .consumed
  else if s = "released" then some .released
  else none

def ReservationState.ofJson? (j : Json) : Option ReservationState := Json.plainChoice? j >>= ofName?

/-- The kind stands beside the reason in one object. -/
def ReleaseReason.toJson : ReleaseReason → Json
  | .cancelled reason => .object [("kind", .text "cancelled"), ("reason", ofOption .text reason)]
  | .expired => .object [("kind", .text "expired")]

/-- The whole object is looked at, whatever its kind. -/
def ReleaseReason.ofJson? : Json → Option ReleaseReason
  | .object members =>
    if Json.occurrences "kind" members ≠ 1 ∨ !(members.all fun m => m.2.isReadable) then none
    else
      match Json.member? "kind" members with
      | some (.text "cancelled") =>
        if Json.occurrences "reason" members ≤ 1 then
          (optional "reason" text? members).map .cancelled
        else none
      | some (.text "expired") => some .expired
      | _ => none
  | .array [.text "cancelled", .null] => some (.cancelled none)
  | .array [.text "cancelled", .text reason] => some (.cancelled (some reason))
  | .array [.text "expired"] => some .expired
  | _ => none

def Reservation.fieldNames : List String :=
  ["reservation_id", "state", "quantity", "original_quantity",
    "consumed_quantity", "notes", "created_at", "expires_at", "closed_at", "release_reason"]

def Reservation.toJson (r : Reservation) : Json :=
  .object [
    ("reservation_id", r.id.toJson),
    ("state", r.state.toJson),
    ("quantity", .integer r.quantity),
    ("original_quantity", .integer r.originalQuantity),
    ("consumed_quantity", .integer r.consumedQuantity),
    ("notes", ofOption .text r.notes),
    ("created_at", r.createdAt.toJson),
    ("expires_at", ofOption Timestamp.toJson r.expiresAt),
    ("closed_at", ofOption Timestamp.toJson r.closedAt),
    ("release_reason", ofOption ReleaseReason.toJson r.releaseReason)]

def Reservation.ofJson? (j : Json) : Option Reservation := do
  let fs ← Json.fields? Reservation.fieldNames j
  return {
    id := ← required "reservation_id" ReservationId.ofJson? fs
    state := ← required "state" ReservationState.ofJson? fs
    quantity := ← required "quantity" int64? fs
    originalQuantity := ← required "original_quantity" int64? fs
    consumedQuantity := ← required "consumed_quantity" int64? fs
    notes := ← optional "notes" text? fs
    createdAt := ← required "created_at" Timestamp.ofJson? fs
    expiresAt := ← optional "expires_at" Timestamp.ofJson? fs
    closedAt := ← optional "closed_at" Timestamp.ofJson? fs
    releaseReason := ← optional "release_reason" ReleaseReason.ofJson? fs }

/-- Reservations are an object with a member for each key. -/
def reservationsToJson (m : KeyMap ReservationId Reservation) : Json :=
  .object (m.entries.map fun e => (e.1.text, e.2.toJson))

def reservationsOfJson? : Json → Option (KeyMap ReservationId Reservation)
  | .object members =>
    (members.mapM fun m => (Reservation.ofJson? m.2).map fun r => (ReservationId.mk m.1, r)).map
      KeyMap.ofList
  | _ => none

/-! ## Records -/

def StockRecord.fieldNames : List String :=
  ["id", "product_id", "sku_code", "on_hand", "reserved", "available", "thresholds",
    "unit_cost", "total_value", "location", "is_active", "version", "last_restocked_at",
    "next_restock_at", "created_at", "updated_at", "reservations", "created"]

def StockRecord.toJson (r : StockRecord) : Json :=
  .object [
    ("id", r.id.toJson),
    ("product_id", ofOption ProductId.toJson r.productId),
    ("sku_code", r.sku.toJson),
    ("on_hand", .integer r.onHand),
    ("reserved", .integer r.reserved),
    ("available", .integer r.available),
    ("thresholds", r.thresholds.toJson),
    ("unit_cost", ofOption Decimal.toJson r.unitCost),
    ("total_value", ofOption Decimal.toJson r.totalValue),
    ("location", ofOption .text r.location),
    ("is_active", .bool r.isActive),
    ("version", Json.ofNat r.version),
    ("last_restocked_at", ofOption Timestamp.toJson r.lastRestockedAt),
    ("next_restock_at", ofOption Timestamp.toJson r.nextRestockAt),
    ("created_at", ofOption Timestamp.toJson r.createdAt),
    ("updated_at", ofOption Timestamp.toJson r.updatedAt),
    ("reservations", reservationsToJson r.reservations),
    ("created", .bool r.isCreated)]

def StockRecord.ofJson? (j : Json) : Option StockRecord := do
  let fs ← Json.fields? StockRecord.fieldNames j
  return {
    id := ← required "id" RecordId.ofJson? fs
    productId := ← optional "product_id" ProductId.ofJson? fs
    sku := ← required "sku_code" SkuCode.ofJson? fs
    onHand := ← required "on_hand" int64? fs
    reserved := ← required "reserved" int64? fs
    available := ← required "available" int64? fs
    thresholds := ← required "thresholds" Thresholds.ofJson? fs
    unitCost := ← optional "unit_cost" Decimal.ofJson? fs
    totalValue := ← optional "total_value" Decimal.ofJson? fs
    location := ← optional "location" text? fs
    isActive := ← required "is_active" bool? fs
    version := ← required "version" uint64? fs
    lastRestockedAt := ← optional "last_restocked_at" Timestamp.ofJson? fs
    nextRestockAt := ← optional "next_restock_at" Timestamp.ofJson? fs
    createdAt := ← optional "created_at" Timestamp.ofJson? fs
    updatedAt := ← optional "updated_at" Timestamp.ofJson? fs
    reservations := ← required "reservations" reservationsOfJson? fs
    isCreated := ← required "created" bool? fs }

/-! ## Status and listing -/

def StockStatus.fieldNames : List String :=
  ["sku_code", "on_hand", "reserved", "available", "is_low_stock",
    "needs_restock", "is_active", "version"]

def StockStatus.toJson (s : StockStatus) : Json :=
  .object [
    ("sku_code", s.sku.toJson),
    ("on_hand", .integer s.onHand),
    ("reserved", .integer s.reserved),
    ("available", .integer s.available),
    ("is_low_stock", .bool s.isLowStock),
    ("needs_restock", .bool s.needsRestock),
    ("is_active", .bool s.isActive),
    ("version", Json.ofNat s.version)]

def StockStatus.ofJson? (j : Json) : Option StockStatus := do
  let fs ← Json.fields? StockStatus.fieldNames j
  return {
    sku := ← required "sku_code" SkuCode.ofJson? fs
    onHand := ← required "on_hand" int64? fs
    reserved := ← required "reserved" int64? fs
    available := ← required "available" int64? fs
    isLowStock := ← required "is_low_stock" bool? fs
    needsRestock := ← required "needs_restock" bool? fs
    isActive := ← required "is_active" bool? fs
    version := ← required "version" uint64? fs }

def LowStockEntry.fieldNames : List String := ["sku_code", "available", "threshold"]

def LowStockEntry.toJson (e : LowStockEntry) : Json :=
  .object [("sku_code", e.sku.toJson), ("available", .integer e.available),
    ("threshold", .integer e.threshold)]

def LowStockEntry.ofJson? (j : Json) : Option LowStockEntry := do
  let fs ← Json.fields? LowStockEntry.fieldNames j
  return {
    sku := ← required "sku_code" SkuCode.ofJson? fs
    available := ← required "available" int64? fs
    threshold := ← required "threshold" int64? fs }

end Stockroom
