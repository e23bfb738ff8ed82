import Stockroom.Identifier.Uuid
import Stockroom.Text.Blank
import Stockroom.Text.KeyOrder

/-! The identifiers of the stock domain: stock records and products carry universally unique
identifiers, stock keeping units and reservations carry text keys. A key read from outside is
trimmed and must not be blank; a key inside a document stands as it is. -/
namespace Stockroom
set_option autoImplicit false

structure RecordId where
  uuid : Uuid
  deriving DecidableEq

structure ProductId where
  uuid : Uuid
  deriving DecidableEq

structure SkuCode where
  text : String
  deriving DecidableEq

structure ReservationId where
  text : String
  deriving DecidableEq

instance : TextKey SkuCode := ⟨SkuCode.text, fun a b h => by cases a; cases b; simp_all⟩

instance : TextKey ReservationId := ⟨ReservationId.text, fun a b h => by cases a; cases b; simp_all⟩

def RecordId.text (i : RecordId) : String := i.uuid.text

def ProductId.text (i : ProductId) : String := i.uuid.text

/-- Why a text is refused as an identifier. -/
inductive IdentifierFault where
  | record (cause : Uuid.ParseError)
  | product (cause : Uuid.ParseError)
  | blankSku
  | blankReservation
  deriving DecidableEq

def IdentifierFault.message : IdentifierFault → String
  | .record e => "StockRecordId: " ++ e.message
  | .product e => "ProductId: " ++ e.message
  | .blankSku => "sku code cannot be empty"
  | .blankReservation => "reservation id cannot be empty"

def RecordId.parse (s : String) : Except IdentifierFault RecordId :=
  match Uuid.parse s.toList with
  | .ok u => .ok ⟨u⟩
  | .error e => .error (.record e)

def ProductId.parse (s : String) : Except IdentifierFault ProductId :=
  match Uuid.parse s.toList with
  | .ok u => .ok ⟨u⟩
  | .error e => .error (.product e)

def SkuCode.parse (s : String) : Except IdentifierFault SkuCode :=
  if Text.trimmed s = "" then .error .blankSku else .ok ⟨Text.trimmed s⟩

def ReservationId.parse (s : String) : Except IdentifierFault ReservationId :=
  if Text.trimmed s = "" then .error .blankReservation else .ok ⟨Text.trimmed s⟩

/-- Codes in ascending byte order of their UTF-8 forms. -/
def SkuCode.sort (codes : List SkuCode) : List SkuCode :=
  codes.mergeSort fun a b => decide (a.text ≤ b.text)

end Stockroom
