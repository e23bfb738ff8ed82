import Stockroom.Document.Record
import Stockroom.Movement.Event

/-! Documents of commands and events. Each is a choice tagged with its kind; the moment stands among
the fields. Commands and events that say the same of a unit have their other fields in common, as a
part that stands under a tag of each. -/
namespace Stockroom
set_option autoImplicit false

open Json (text? int64? required optional ofOption choice)

/-! ## Parts -/

/-- A part of a document: the names of its fields, what is written to them, and
what is read from them. -/
structure Part (β : Type) where
  names : List String
  fields : β → Json.Fields
  ofFields? : Json.Fields → Option β

def idField (id : ReservationId) : String × Json := ("reservation_id", id.toJson)

def requiredId (fs : Json.Fields) : Option ReservationId :=
  required "reservation_id" ReservationId.ofJson? fs

namespace Part

def nothing : Part Unit where
  names := []
  fields _ := []
  ofFields? _ := some ()

/-- An item's particulars, in which the initial quantity has the given name. -/
def item (quantityName : String) : Part ItemDetails where
  names := ["product_id", quantityName, "thresholds", "unit_cost", "location", "next_restock_at"]
  fields d := [
    ("product_id", d.productId.toJson),
    (quantityName, .integer d.onHand),
    ("thresholds", d.thresholds.toJson),
    ("unit_cost", ofOption Decimal.toJson d.unitCost),
    ("location", ofOption .text d.location),
    ("next_restock_at", ofOption Timestamp.toJson d.nextRestockAt)]
  ofFields? fs := do
    return {
      productId := ← required "product_id" ProductId.ofJson? fs
      onHand := ← required quantityName int64? fs
      thresholds := ← required "thresholds" Thresholds.ofJson? fs
      unitCost := ← optional "unit_cost" Decimal.ofJson? fs
      location := ← optional "location" text? fs
      nextRestockAt := ← optional "next_restock_at" Timestamp.ofJson? fs }

/-- The particulars of an item, with the record and the unit they are of. -/
def record : Part (RecordId × SkuCode × ItemDetails) where
  names := "record_id" :: "sku_code" :: (item "on_hand").names
  fields := fun (id, sku, details) =>
    ("record_id", id.toJson) :: ("sku_code", sku.toJson) :: (item "on_hand").fields details
  ofFields? fs := do
    return (← required "record_id" RecordId.ofJson? fs, ← required "sku_code" SkuCode.ofJson? fs,
      ← (item "on_hand").ofFields? fs)

/-- Units of a reservation. -/
def units : Part (ReservationId × Int) where
  names := ["reservation_id", "quantity"]
  fields := fun (id, quantity) => [idField id, ("quantity", .integer quantity)]
  ofFields? fs := do
    return (← requiredId fs, ← required "quantity" int64? fs)

/-- A hold of units, with its notes and its expiry. -/
def hold : Part (ReservationId × Int × Option String × Option Timestamp) where
  names := ["reservation_id", "quantity", "notes", "expires_at"]
  fields := fun (id, quantity, notes, expiresAt) =>
    [idField id, ("quantity", .integer quantity), ("notes", ofOption .text notes),
      ("expires_at", ofOption Timestamp.toJson expiresAt)]
  ofFields? fs := do
    return (← requiredId fs, ← required "quantity" int64? fs, ← optional "notes" text? fs,
      ← optional "expires_at" Timestamp.ofJson? fs)

/-- Units given back, and why. -/
def giveBack : Part (ReservationId × Int × Option String) where
  names := ["reservation_id", "quantity", "reason"]
  fields := fun (id, quantity, reason) =>
    [idField id, ("quantity", .integer quantity), ("reason", ofOption .text reason)]
  ofFields? fs := do
    return (← requiredId fs, ← required "quantity" int64? fs, ← optional "reason" text? fs)

/-- Units shipped, of as many as were held. -/
def shipment : Part (ReservationId × Int × Int) where
  names := ["reservation_id", "quantity", "held"]
  fields := fun (id, quantity, held) =>
    [idField id, ("quantity", .integer quantity), ("held", .integer held)]
  ofFields? fs := do
    return (← requiredId fs, ← required "quantity" int64? fs, ← required "held" int64? fs)

def correction : Part (Int × Option String × Option String) where
  names := ["delta", "reason", "reference_id"]
  fields := fun (delta, reason, reference) =>
    [("delta", .integer delta), ("reason", ofOption .text reason),
      ("reference_id", ofOption .text reference)]
  ofFields? fs := do
    return (← required "delta" int64? fs, ← optional "reason" text? fs,
      ← optional "reference_id" text? fs)

def reason : Part (Option String) where
  names := ["reason"]
  fields reason := [("reason", ofOption .text reason)]
  ofFields? fs := optional "reason" text? fs

end Part

/-! ## Kinds -/

/-- A kind of document: its tag, the names of its fields beside the moment, and
what is read from them. -/
structure Kind (α : Type) where
  tag : String
  names : List String
  ofFields? : Json.Fields → Option α

/-- A part that stands under a tag. -/
def Part.kind {α β : Type} (p : Part β) (tag : String) (make : β → α) : Kind α :=
  ⟨tag, p.names, fun fs => (p.ofFields? fs).map make⟩

def momentField (t : Timestamp) : String × Json := ("occurred_at", t.toJson)

def requiredMoment (fs : Json.Fields) : Option Timestamp :=
  required "occurred_at" Timestamp.ofJson? fs

/-- What is tagged with its kind and has a moment. -/
def timed (tag : String) (fields : Json.Fields) (t : Timestamp) : Json :=
  choice tag (.object (fields ++ [momentField t]))

def timed? {α : Type} (kinds : List (Kind α)) (j : Json) : Option (α × Timestamp) := do
  let (tag, content) ← Json.choice? j
  let kind ← kinds.find? fun k => k.tag = tag
  let fs ← Json.fields? (kind.names ++ ["occurred_at"]) content
  return (← kind.ofFields? fs, ← requiredMoment fs)

/-! ## Commands -/

def Action.tag : Action → String
  | .create _ => "CreateItem"
  | .reserve .. => "Reserve"
  | .release .. => "Release"
  | .consume .. => "ConsumeReserved"
  | .adjust .. => "AdjustInventory"
  | .expire => "ExpireReservations"
  | .deactivate _ => "Deactivate"

def Action.fields : Action → Json.Fields
  | .create details => (Part.item "initial_on_hand").fields details
  | .reserve id quantity notes expiresAt => Part.hold.fields (id, quantity, notes, expiresAt)
  | .release id quantity reason => Part.giveBack.fields (id, quantity, reason)
  | .consume id quantity => Part.units.fields (id, quantity)
  | .adjust delta reason reference => Part.correction.fields (delta, reason, reference)
  | .expire => Part.nothing.fields ()
  | .deactivate reason => Part.reason.fields reason

def Action.kinds : List (Kind Action) := [
  (Part.item "initial_on_hand").kind "CreateItem" .create,
  Part.hold.kind "Reserve" fun (id, quantity, notes, expiresAt) =>
    .reserve id quantity notes expiresAt,
  Part.giveBack.kind "Release" fun (id, quantity, reason) => .release id quantity reason,
  Part.units.kind "ConsumeReserved" fun (id, quantity) => .consume id quantity,
  Part.correction.kind "AdjustInventory" fun (delta, reason, reference) =>
    .adjust delta reason reference,
  Part.nothing.kind "ExpireReservations" fun _ => .expire,
  Part.reason.kind "Deactivate" .deactivate]

def Command.toJson (c : Command) : Json := timed c.action.tag c.action.fields c.occurredAt

def Command.ofJson? (j : Json) : Option Command :=
  (timed? Action.kinds j).map fun (action, t) => ⟨action, t⟩

/-! ## Events -/

def Change.tag : Change → String
  | .created .. => "ItemCreated"
  | .reserved .. => "StockReserved"
  | .released .. => "ReservationReleased"
  | .consumed .. => "ReservationConsumed"
  | .expired .. => "ReservationExpired"
  | .adjusted .. => "StockAdjusted"
  | .deactivated _ => "ItemDeactivated"

def Change.fields : Change → Json.Fields
  | .created recordId sku details => Part.record.fields (recordId, sku, details)
  | .reserved id quantity notes expiresAt => Part.hold.fields (id, quantity, notes, expiresAt)
  | .released id quantity reason => Part.giveBack.fields (id, quantity, reason)
  | .consumed id quantity held => Part.shipment.fields (id, quantity, held)
  | .expired id quantity => Part.units.fields (id, quantity)
  | .adjusted delta reason reference => Part.correction.fields (delta, reason, reference)
  | .deactivated reason => Part.reason.fields reason

def Change.kinds : List (Kind Change) := [
  Part.record.kind "ItemCreated" fun (recordId, sku, details) => .created recordId sku details,
  Part.hold.kind "StockReserved" fun (id, quantity, notes, expiresAt) =>
    .reserved id quantity notes expiresAt,
  Part.giveBack.kind "ReservationReleased" fun (id, quantity, reason) =>
    .released id quantity reason,
  Part.shipment.kind "ReservationConsumed" fun (id, quantity, held) => .consumed id quantity held,
  Part.units.kind "ReservationExpired" fun (id, quantity) => .expired id quantity,
  Part.correction.kind "StockAdjusted" fun (delta, reason, reference) =>
    .adjusted delta reason reference,
  Part.reason.kind "ItemDeactivated" .deactivated]

def Event.toJson (e : Event) : Json := timed e.change.tag e.change.fields e.occurredAt

def Event.ofJson? (j : Json) : Option Event :=
  (timed? Change.kinds j).map fun (change, t) => ⟨change, t⟩

end Stockroom
