import Stockroom.Movement.Application
import Stockroom.Numeric.Word

/-! Deciding commands. `eventsFor` answers a command on a record with a refusal or with the events
that carry it out, and leaves the record alone; `execute` also applies them. No event at all means
that there is nothing to do. -/
namespace Stockroom.StockRecord
set_option autoImplicit false

/-! ## Checks -/

def ensure (p : Prop) [Decidable p] (e : StockError) : Except StockError Unit :=
  if p then .ok () else .error e

def ensurePositive (quantity : Int) : Except StockError Unit :=
  ensure (0 < quantity) (.validation .quantityNotPositive)

def ensureCreated (r : StockRecord) : Except StockError Unit :=
  ensure (r.isCreated = true) (.notFound r.sku)

/-- The value of the given quantity must be a decimal, if there is a unit cost. -/
def ensureValuable (unitCost : Option Decimal) (quantity : Int) : Except StockError Unit :=
  ensure (unitCost.isSome = true → (stockValue unitCost quantity).isSome = true)
    (.validation .valueOverflow)

def heldReservation (r : StockRecord) (id : ReservationId) : Except StockError Reservation :=
  match r.reservation? id with
  | none => .error (.invalidReservationState id .missing)
  | some x => if x.isHeld then .ok x else .error (.invalidReservationState id (.inState x.state))

/-! ## Commands -/

/-- One event for each held reservation past its expiry, in key order. -/
def expiryEvents (r : StockRecord) (now : Timestamp) : List Event :=
  (r.staleHolds now).map fun x => ⟨.expired x.id x.quantity, now⟩

/-- The units that the holds past their expiry would give back. -/
def reclaimable (r : StockRecord) (now : Timestamp) : Int :=
  total ((r.staleHolds now).map Reservation.quantity)

def decideCreate (r : StockRecord) (details : ItemDetails) (now : Timestamp) :
    Except StockError (List Event) := do
  ensure (r.isCreated = false) (.alreadyExists r.sku)
  ensure (0 ≤ details.onHand) (.validation .initialNegative)
  ensure (0 ≤ details.thresholds.lowStock ∧ 0 ≤ details.thresholds.restock)
    (.validation .thresholdsNegative)
  ensure (∀ cost ∈ details.unitCost, cost.isNegative = false) (.validation .costNegative)
  ensureValuable details.unitCost details.onHand
  return [⟨.created r.id r.sku details, now⟩]

/-- An identifier that is in use may not be used again. A hold past its expiry that has not been
swept yet is still reported as held. -/
def ensureFresh (r : StockRecord) (id : ReservationId) (now : Timestamp) : Except StockError Unit :=
  match r.reservation? id with
  | none => .ok ()
  | some x =>
    if x.isHeld && !x.isExpiredAt now then .error (.duplicateReservation id)
    else .error (.invalidReservationState id (.inState x.state))

/-- A reservation first reclaims the holds past their expiry. -/
def decideReserve (r : StockRecord) (id : ReservationId) (quantity : Int) (notes : Option String)
    (expiresAt : Option Timestamp) (now : Timestamp) : Except StockError (List Event) := do
  ensurePositive quantity
  r.ensureCreated
  ensure (r.isActive = true) (.inactive r.sku)
  ensure (∀ t ∈ expiresAt, ¬t ≤ now) (.validation .expiryNotLater)
  r.ensureFresh id now
  ensure (quantity ≤ r.available + r.reclaimable now)
    (.insufficientStock quantity (r.available + r.reclaimable now))
  return r.expiryEvents now ++ [⟨.reserved id quantity notes expiresAt, now⟩]

def decideRelease (r : StockRecord) (id : ReservationId) (quantity : Int) (reason : Option String)
    (now : Timestamp) : Except StockError (List Event) := do
  ensurePositive quantity
  r.ensureCreated
  let x ← r.heldReservation id
  ensure (quantity ≤ x.quantity) (.excessiveRelease quantity x.quantity)
  ensure (quantity ≤ r.reserved) (.excessiveRelease quantity r.reserved)
  return [⟨.released id quantity reason, now⟩]

def decideConsume (r : StockRecord) (id : ReservationId) (quantity : Int) (now : Timestamp) :
    Except StockError (List Event) := do
  ensurePositive quantity
  r.ensureCreated
  let x ← r.heldReservation id
  ensure (quantity ≤ x.quantity) (.invalidReservationState id (.holdsLess x.quantity quantity))
  return [⟨.consumed id quantity x.quantity, now⟩]

/-- Held units cannot be written off underneath their reservations. -/
def decideAdjust (r : StockRecord) (delta : Int) (reason reference : Option String)
    (now : Timestamp) : Except StockError (List Event) := do
  r.ensureCreated
  ensure (delta ≠ 0) (.validation .zeroDelta)
  ensure (fitsInt64 (r.onHand + delta) = true) (.validation .onHandOverflow)
  ensure (0 ≤ r.onHand + delta ∧ r.reserved ≤ r.onHand + delta)
    (.insufficientQuantity r.onHand delta)
  ensureValuable r.unitCost (r.onHand + delta)
  return [⟨.adjusted delta reason reference, now⟩]

def decideExpire (r : StockRecord) (now : Timestamp) : Except StockError (List Event) := do
  r.ensureCreated
  return r.expiryEvents now

/-- Deactivating twice does nothing. -/
def decideDeactivate (r : StockRecord) (reason : Option String) (now : Timestamp) :
    Except StockError (List Event) := do
  r.ensureCreated
  return if r.isActive then [⟨.deactivated reason, now⟩] else []

def eventsFor (r : StockRecord) (c : Command) : Except StockError (List Event) :=
  match c.action with
  | .create details => r.decideCreate details c.occurredAt
  | .reserve id quantity notes expiresAt => r.decideReserve id quantity notes expiresAt c.occurredAt
  | .release id quantity reason => r.decideRelease id quantity reason c.occurredAt
  | .consume id quantity => r.decideConsume id quantity c.occurredAt
  | .adjust delta reason reference => r.decideAdjust delta reason reference c.occurredAt
  | .expire => r.decideExpire c.occurredAt
  | .deactivate reason => r.decideDeactivate reason c.occurredAt

/-- The record after a command, at the same version, and the events that led there. -/
def execute (r : StockRecord) (c : Command) : Except StockError (StockRecord × List Event) :=
  match r.eventsFor c with
  | .error e => .error e
  | .ok events => .ok (r.applyAll events, events)

/-- The record after a list of commands, of which refused ones do nothing. -/
def run (r : StockRecord) : List Command → StockRecord
  | [] => r
  | c :: cs =>
    match r.execute c with
    | .ok (next, _) => run next cs
    | .error _ => run r cs

end Stockroom.StockRecord
