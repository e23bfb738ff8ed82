import Stockroom.Record.Reservation

/-! Why the stock domain refuses a request. Each refusal is a cause with what belongs to it;
`message` is the text that callers see. -/
namespace Stockroom
set_option autoImplicit false

/-- What is wrong with a request whatever the stock may be. -/
inductive Flaw where
  | identifier (fault : IdentifierFault)
  | quantityNotPositive
  | initialNegative
  | thresholdsNegative
  | costNegative
  | valueOverflow
  | expiryNotLater
  | zeroDelta
  | onHandOverflow
  | ttlOutOfRange
  | stated (text : String)
  deriving DecidableEq

def Flaw.message : Flaw → String
  | .identifier f => f.message
  | .quantityNotPositive => "quantity must be positive"
  | .initialNegative => "initial on-hand cannot be negative"
  | .thresholdsNegative => "thresholds cannot be negative"
  | .costNegative => "unit cost cannot be negative"
  | .valueOverflow => "stock value overflows"
  | .expiryNotLater => "reservation expiry must be in the future"
  | .zeroDelta => "delta cannot be zero"
  | .onHandOverflow => "on-hand quantity overflow"
  | .ttlOutOfRange => "reservation ttl out of range"
  | .stated text => text

/-- How a reservation stands in the way of a request. -/
inductive Standing where
  | missing
  | inState (state : ReservationState)
  | holdsLess (held wanted : Int)
  | stated (text : String)
  deriving DecidableEq

def Standing.message : Standing → String
  | .missing => "missing"
  | .inState s => s.name
  | .holdsLess held wanted =>
    "held for " ++ Text.showInt held ++ ", cannot consume " ++ Text.showInt wanted
  | .stated text => text

inductive StockError where
  | validation (flaw : Flaw)
  | notFound (sku : SkuCode)
  | alreadyExists (sku : SkuCode)
  | inactive (sku : SkuCode)
  | insufficientStock (requested available : Int)
  | excessiveRelease (requested held : Int)
  | invalidReservationState (id : ReservationId) (standing : Standing)
  | duplicateReservation (id : ReservationId)
  | insufficientQuantity (onHand delta : Int)
  deriving DecidableEq

def StockError.message : StockError → String
  | .validation flaw => "validation failed: " ++ flaw.message
  | .notFound sku => "stock record not found: " ++ sku.text
  | .alreadyExists sku => "stock record already exists: " ++ sku.text
  | .inactive sku => "stock record is inactive: " ++ sku.text
  | .insufficientStock requested available =>
    "insufficient stock: requested " ++ Text.showInt requested ++
      ", available " ++ Text.showInt available
  | .excessiveRelease requested held =>
    "excessive release: requested " ++ Text.showInt requested ++ ", held " ++ Text.showInt held
  | .invalidReservationState id standing => "reservation " ++ id.text ++ " is " ++ standing.message
  | .duplicateReservation id => "duplicate reservation: " ++ id.text
  | .insufficientQuantity onHand delta =>
    "insufficient quantity: on hand " ++ Text.showInt onHand ++ ", delta " ++ Text.showInt delta

end Stockroom
