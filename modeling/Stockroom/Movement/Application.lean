import Stockroom.Movement.Event

/-! Applying events to a record. Each event moves the counters and its reservation; the derived
fields are brought up to date at the end of every application. -/
namespace Stockroom
set_option autoImplicit false

namespace Reservation

/-- A hold reduced by released units; with nothing left it is closed as cancelled. -/
def giveBack (r : Reservation) (quantity : Int) (reason : Option String)
    (moment : Timestamp) : Reservation :=
  let rest := { r with quantity := r.quantity - quantity }
  if rest.quantity = 0 then
    { rest.close .released moment with releaseReason := some (.cancelled reason) }
  else rest

def consume (r : Reservation) (quantity : Int) (moment : Timestamp) : Reservation :=
  { r.close .consumed moment with consumedQuantity := quantity }

def expire (r : Reservation) (moment : Timestamp) : Reservation :=
  { r.close .released moment with releaseReason := some .expired }

end Reservation

namespace StockRecord

/-- The record with an item's particulars, all of it on hand and nothing reserved. -/
def start (r : StockRecord) (details : ItemDetails) (moment : Timestamp) : StockRecord :=
  { r with
    productId := some details.productId
    onHand := details.onHand
    reserved := 0
    thresholds := details.thresholds
    unitCost := details.unitCost
    location := details.location
    nextRestockAt := details.nextRestockAt
    isActive := true
    createdAt := some moment
    isCreated := true }

/-- A correction upwards counts as a restocking. -/
def adjust (r : StockRecord) (delta : Int) (moment : Timestamp) : StockRecord :=
  if 0 < delta then
    { r with onHand := r.onHand + delta, lastRestockedAt := some moment, nextRestockAt := none }
  else { r with onHand := r.onHand + delta }

/-- The record after a change, its derived fields not yet brought up to date. -/
def change (r : StockRecord) (moment : Timestamp) : Change → StockRecord
  | .created _ _ details => r.start details moment
  | .reserved id quantity notes expiresAt =>
    { r with
      reserved := r.reserved + quantity
      reservations := r.reservations.insert id (.place id quantity notes moment expiresAt) }
  | .released id quantity reason =>
    { r with
      reserved := r.reserved - quantity
      reservations := r.reservations.modify id fun x => x.giveBack quantity reason moment }
  | .consumed id quantity held =>
    { r with
      onHand := r.onHand - quantity
      reserved := r.reserved - held
      reservations := r.reservations.modify id fun x => x.consume quantity moment }
  | .expired id quantity =>
    { r with
      reserved := r.reserved - quantity
      reservations := r.reservations.modify id fun x => x.expire moment }
  | .adjusted delta _ _ => r.adjust delta moment
  | .deactivated _ => { r with isActive := false }

def apply (r : StockRecord) (e : Event) : StockRecord :=
  { r.change e.occurredAt e.change with updatedAt := some e.occurredAt }.derive

def applyAll (r : StockRecord) (events : List Event) : StockRecord := events.foldl apply r

@[simp] theorem applyAll_nil (r : StockRecord) : r.applyAll [] = r := rfl

@[simp] theorem applyAll_cons (r : StockRecord) (e : Event) (events : List Event) :
    r.applyAll (e :: events) = (r.apply e).applyAll events := rfl

theorem applyAll_append (r : StockRecord) (es fs : List Event) :
    r.applyAll (es ++ fs) = (r.applyAll es).applyAll fs := List.foldl_append

end StockRecord

end Stockroom
