import Stockroom.Document.Movement

/-! Envelopes: notices about committed events, and their documents. The payload of an envelope
is the event's document. -/
namespace Stockroom
set_option autoImplicit false

open Json (text? uint64? required)

/-- A notice about a committed event: the record it belongs to, and as sequence number the version
at which it was committed. Events committed together share the number. -/
structure Envelope where
  eventId : Uuid
  recordId : RecordId
  sku : SkuCode
  eventType : String
  sequenceNumber : Nat
  payload : Json

def Envelope.fieldNames : List String :=
  ["event_id", "record_id", "sku_code", "event_type", "sequence_number", "payload"]

def Envelope.toJson (e : Envelope) : Json :=
  .object [
    ("event_id", e.eventId.toJson),
    ("record_id", e.recordId.toJson),
    ("sku_code", e.sku.toJson),
    ("event_type", .text e.eventType),
    ("sequence_number", Json.ofNat e.sequenceNumber),
    ("payload", e.payload)]

/-- The payload may be any value, null included. -/
def Envelope.ofJson? (j : Json) : Option Envelope := do
  let fs ← Json.fields? Envelope.fieldNames j
  return {
    eventId := ← required "event_id" Uuid.ofJson? fs
    recordId := ← required "record_id" RecordId.ofJson? fs
    sku := ← required "sku_code" SkuCode.ofJson? fs
    eventType := ← required "event_type" text? fs
    sequenceNumber := ← required "sequence_number" uint64? fs
    payload := ← required "payload" Json.settle fs }

/-- The notice about an event of a record as committed. -/
def Envelope.about (eventId : Uuid) (record : StockRecord) (event : Event) : Envelope where
  eventId := eventId
  recordId := record.id
  sku := record.sku
  eventType := event.type
  sequenceNumber := record.version
  payload := event.toJson

end Stockroom
