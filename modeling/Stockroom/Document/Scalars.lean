import Stockroom.Json.Fields
import Stockroom.Numeric.Binary.Shortest
import Stockroom.Numeric.Decimal.Text
import Stockroom.Record.Basic
import Stockroom.Time.Timestamp.Text

/-! Documents of identifiers, decimals, points in time and spans. Decimals are written as texts and
read from texts and numbers; spans are seconds and nanoseconds, and admit no other member. Keys
stand as they are, untrimmed and unchecked. -/
namespace Stockroom
set_option autoImplicit false

open Json (text?)

def Uuid.toJson (u : Uuid) : Json := .text u.text

def Uuid.ofJson? (j : Json) : Option Uuid := text? j >>= fun s => (Uuid.parse s.toList).toOption

def RecordId.toJson (i : RecordId) : Json := i.uuid.toJson

def RecordId.ofJson? (j : Json) : Option RecordId := (Uuid.ofJson? j).map RecordId.mk

def ProductId.toJson (i : ProductId) : Json := i.uuid.toJson

def ProductId.ofJson? (j : Json) : Option ProductId := (Uuid.ofJson? j).map ProductId.mk

def SkuCode.toJson (k : SkuCode) : Json := .text k.text

def SkuCode.ofJson? (j : Json) : Option SkuCode := (text? j).map SkuCode.mk

def ReservationId.toJson (k : ReservationId) : Json := .text k.text

def ReservationId.ofJson? (j : Json) : Option ReservationId := (text? j).map ReservationId.mk

def Timestamp.toJson (t : Timestamp) : Json := .text t.text

def Timestamp.ofJson? (j : Json) : Option Timestamp := text? j >>= Timestamp.parse?

def Decimal.toJson (d : Decimal) : Json := .text d.text

/-- A float stands for its shortest decimal. -/
def Decimal.ofJson? : Json → Option Decimal
  | .text s => Decimal.parse? s
  | .integer n => Decimal.ofInt? n
  | .real x => Binary.positionalText? x >>= fun s => Decimal.plain? s.toList
  | _ => none

def Duration.toJson (d : Duration) : Json :=
  .object [("secs", Json.ofNat d.seconds), ("nanos", Json.ofNat d.subsecond)]

/-- Nanoseconds beyond a second carry over; the sum must be a span. -/
def Duration.ofJson? (j : Json) : Option Duration := do
  let fs ← Json.fields? ["secs", "nanos"] j
  if fs.length ≠ 2 then none
  else
    let secs ← Json.required "secs" Json.uint64? fs
    let nanos ← Json.required "nanos" Json.uint32? fs
    Duration.ofNanos? (secs * 1000000000 + nanos)

end Stockroom
