import Stockroom.Numeric.Decimal
import Stockroom.Numeric.Total
import Stockroom.Record.Error

/-! The stock record of one stock keeping unit: counters, reservations and particulars. Available
stock and total value are derived from the counters and the unit cost (`derive`). A record is
consistent if the reserved units lie between zero and the units on hand, both derived fields are up
to date, and the held reservations add up to the reserved units. -/
namespace Stockroom
set_option autoImplicit false

/-- Levels of available stock at or below which stock counts as low or should be replenished. -/
structure Thresholds where
  lowStock : Int
  restock : Int
  deriving DecidableEq

def Thresholds.standard : Thresholds := ⟨10, 20⟩

structure StockRecord where
  id : RecordId
  productId : Option ProductId
  sku : SkuCode
  onHand : Int
  reserved : Int
  available : Int
  thresholds : Thresholds
  unitCost : Option Decimal
  totalValue : Option Decimal
  location : Option String
  isActive : Bool
  version : Nat
  lastRestockedAt : Option Timestamp
  nextRestockAt : Option Timestamp
  createdAt : Option Timestamp
  updatedAt : Option Timestamp
  reservations : KeyMap ReservationId Reservation
  isCreated : Bool
  deriving DecidableEq

/-- Unit cost times quantity; `none` without a cost or if the product does not fit. -/
def stockValue (unitCost : Option Decimal) (quantity : Int) : Option Decimal :=
  unitCost >>= fun cost => cost.timesInt? quantity

/-- Both absent, or of one value. -/
def sameWorth : Option Decimal → Option Decimal → Bool
  | none, none => true
  | some a, some b => a.sameValue b
  | _, _ => false

/-- What is inconsistent in a record. -/
inductive Inconsistency where
  | reservedOutside (reserved onHand : Int)
  | availableStale (available : Int)
  | valueStale
  | heldMismatch (held reserved : Int)
  deriving DecidableEq

def Inconsistency.message : Inconsistency → String
  | .reservedOutside reserved onHand =>
    "reserved " ++ Text.showInt reserved ++ " outside 0..=" ++ Text.showInt onHand ++ " on hand"
  | .availableStale available => "available " ++ Text.showInt available ++ " is stale"
  | .valueStale => "total value is stale"
  | .heldMismatch held reserved =>
    "held reservations sum to " ++ Text.showInt held ++
      ", record reserves " ++ Text.showInt reserved

namespace StockRecord

/-- The record of a unit that has not been created yet. -/
def empty (id : RecordId) (sku : SkuCode) : StockRecord where
  id := id
  productId := none
  sku := sku
  onHand := 0
  reserved := 0
  available := 0
  thresholds := .standard
  unitCost := none
  totalValue := none
  location := none
  isActive := true
  version := 0
  lastRestockedAt := none
  nextRestockAt := none
  createdAt := none
  updatedAt := none
  reservations := .empty
  isCreated := false

/-- The record with its derived fields brought up to date. -/
def derive (r : StockRecord) : StockRecord :=
  { r with
    available := max 0 (r.onHand - r.reserved)
    totalValue := stockValue r.unitCost r.onHand }

def atVersion (r : StockRecord) (version : Nat) : StockRecord := { r with version := version }

def reservation? (r : StockRecord) (id : ReservationId) : Option Reservation :=
  r.reservations.get? id

/-- Held reservations past their expiry, in key order. -/
def staleHolds (r : StockRecord) (now : Timestamp) : List Reservation :=
  r.reservations.values.filter fun x => x.isStaleAt now

/-- The sum of the held quantities. -/
def heldTotal (r : StockRecord) : Int := total (r.reservations.values.map Reservation.heldQuantity)

/-- The first inconsistency, in the order of the constructors of `Inconsistency`. -/
def inconsistency? (r : StockRecord) : Option Inconsistency :=
  if r.reserved < 0 ∨ r.onHand < r.reserved then some (.reservedOutside r.reserved r.onHand)
  else if r.available ≠ max 0 (r.onHand - r.reserved) then some (.availableStale r.available)
  else if !sameWorth r.totalValue (stockValue r.unitCost r.onHand) then some .valueStale
  else if r.heldTotal ≠ r.reserved then some (.heldMismatch r.heldTotal r.reserved)
  else none

def IsConsistent (r : StockRecord) : Prop := r.inconsistency? = none

instance (r : StockRecord) : Decidable r.IsConsistent := inferInstanceAs (Decidable (_ = _))

/-- Equality up to the scales of cost and value. -/
def agrees (r s : StockRecord) : Bool :=
  sameWorth r.unitCost s.unitCost && sameWorth r.totalValue s.totalValue &&
    { r with unitCost := none, totalValue := none } ==
      { s with unitCost := none, totalValue := none }

/-! ## Consistency, field by field -/

theorem isConsistent_iff (r : StockRecord) : r.IsConsistent ↔
    (0 ≤ r.reserved ∧ r.reserved ≤ r.onHand) ∧ r.available = max 0 (r.onHand - r.reserved) ∧
      sameWorth r.totalValue (stockValue r.unitCost r.onHand) = true ∧
        r.heldTotal = r.reserved := by
  unfold IsConsistent inconsistency?
  split
  · rename_i h
    simp only [reduceCtorEq, false_iff]
    omega
  · split
    · rename_i h
      simp [h]
    · split
      · rename_i h
        simp only [Bool.not_eq_eq_eq_not, Bool.not_true] at h
        simp [h]
      · split
        · rename_i h
          simp [h]
        · rename_i h1 h2 h3 h4
          simp only [Bool.not_eq_eq_eq_not, Bool.not_true, Bool.not_eq_false] at h3
          simp only [true_iff]
          exact ⟨by omega, by simpa using h2, h3, by simpa using h4⟩

theorem isConsistent_empty (id : RecordId) (sku : SkuCode) : (empty id sku).IsConsistent := rfl

end StockRecord

end Stockroom
