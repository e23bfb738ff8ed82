import Stockroom.Movement.Decision

/-! The engine in words of 64 bits. Each function does what its namesake does, but with
sums and differences that are taken one by one and have to fit into a word: one that does
not ends the computation without a result. Only a correction looks at its sum beforehand
and refuses the command. -/
namespace Stockroom
set_option autoImplicit false

def Reservation.giveBackWord? (r : Reservation) (quantity : Int) (reason : Option String)
    (moment : Timestamp) : Option Reservation := do
  let rest := { r with quantity := ← subWord? r.quantity quantity }
  return if rest.quantity = 0 then
    { rest.close .released moment with releaseReason := some (.cancelled reason) }
  else rest

/-- Changes the value under a key, if the change has a result. -/
def KeyMap.modify? {κ α : Type} [TextKey κ] (m : KeyMap κ α) (k : κ)
    (f : α → Option α) : Option (KeyMap κ α) :=
  match m.get? k with
  | none => some m
  | some a => (f a).map fun b => m.modify k fun _ => b

namespace StockRecord

/-! ## Application -/

def changeWord? (r : StockRecord) (moment : Timestamp) : Change → Option StockRecord
  | .created _ _ details => some (r.start details moment)
  | .reserved id quantity notes expiresAt => do
    let reserved ← addWord? r.reserved quantity
    return { r with
      reserved := reserved
      reservations := r.reservations.insert id (.place id quantity notes moment expiresAt) }
  | .released id quantity reason => do
    let reserved ← subWord? r.reserved quantity
    let reservations ← r.reservations.modify? id fun x => x.giveBackWord? quantity reason moment
    return { r with reserved := reserved, reservations := reservations }
  | .consumed id quantity held => do
    let onHand ← subWord? r.onHand quantity
    let reserved ← subWord? r.reserved held
    return { r with
      onHand := onHand
      reserved := reserved
      reservations := r.reservations.modify id fun x => x.consume quantity moment }
  | .expired id quantity => do
    let reserved ← subWord? r.reserved quantity
    return { r with
      reserved := reserved
      reservations := r.reservations.modify id fun x => x.expire moment }
  | .adjusted delta _ _ => do
    let onHand ← addWord? r.onHand delta
    return if 0 < delta then
      { r with onHand := onHand, lastRestockedAt := some moment, nextRestockAt := none }
      else { r with onHand := onHand }
  | .deactivated _ => some { r with isActive := false }

def deriveWord? (r : StockRecord) : Option StockRecord := do
  let free ← subWord? r.onHand r.reserved
  return { r with available := max 0 free, totalValue := stockValue r.unitCost r.onHand }

def applyWord? (r : StockRecord) (e : Event) : Option StockRecord := do
  let changed ← r.changeWord? e.occurredAt e.change
  { changed with updatedAt := some e.occurredAt }.deriveWord?

def applyAllWord? (r : StockRecord) (events : List Event) : Option StockRecord :=
  events.foldlM applyWord? r

/-! ## Decision -/

def decideReserveWord? (r : StockRecord) (id : ReservationId) (quantity : Int)
    (notes : Option String) (expiresAt : Option Timestamp) (now : Timestamp) :
    ExceptT StockError Option (List Event) := do
  ensurePositive quantity
  r.ensureCreated
  ensure (r.isActive = true) (.inactive r.sku)
  ensure (∀ t ∈ expiresAt, ¬t ≤ now) (.validation .expiryNotLater)
  -- added up before the key is looked at
  let reclaimed ← totalWord? ((r.staleHolds now).map Reservation.quantity)
  r.ensureFresh id now
  let free ← addWord? r.available reclaimed
  ensure (quantity ≤ free) (.insufficientStock quantity free)
  return r.expiryEvents now ++ [⟨.reserved id quantity notes expiresAt, now⟩]

def decideAdjustWord (r : StockRecord) (delta : Int) (reason reference : Option String)
    (now : Timestamp) : Except StockError (List Event) := do
  r.ensureCreated
  ensure (delta ≠ 0) (.validation .zeroDelta)
  let onHand ← match addWord? r.onHand delta with
    | some onHand => .ok onHand
    | none => .error (.validation .onHandOverflow)
  ensure (0 ≤ onHand ∧ r.reserved ≤ onHand) (.insufficientQuantity r.onHand delta)
  ensureValuable r.unitCost onHand
  return [⟨.adjusted delta reason reference, now⟩]

/-- The other decisions do not calculate. -/
def eventsForWord? (r : StockRecord) (c : Command) : Option (Except StockError (List Event)) :=
  match c.action with
  | .reserve id quantity notes expiresAt =>
    (r.decideReserveWord? id quantity notes expiresAt c.occurredAt).run
  | .adjust delta reason reference => some (r.decideAdjustWord delta reason reference c.occurredAt)
  | _ => some (r.eventsFor c)

def executeWord? (r : StockRecord) (c : Command) :
    Option (Except StockError (StockRecord × List Event)) := do
  match ← r.eventsForWord? c with
  | .error e => return .error e
  | .ok events => return .ok (← r.applyAllWord? events, events)

def runWord? (r : StockRecord) : List Command → Option StockRecord
  | [] => some r
  | c :: cs => do
    match ← r.executeWord? c with
    | .ok (next, _) => next.runWord? cs
    | .error _ => r.runWord? cs

/-! ## Consistency -/

def heldWord? (r : StockRecord) : Option Int :=
  totalWord? ((r.reservations.values.filter Reservation.isHeld).map Reservation.quantity)

def inconsistencyWord? (r : StockRecord) : Option (Option Inconsistency) :=
  if r.reserved < 0 ∨ r.onHand < r.reserved then return some (.reservedOutside r.reserved r.onHand)
  else do
    let free ← subWord? r.onHand r.reserved
    if r.available ≠ max 0 free then return some (.availableStale r.available)
    else if !sameWorth r.totalValue (stockValue r.unitCost r.onHand) then return some .valueStale
    else
      let held ← r.heldWord?
      return if held ≠ r.reserved then some (.heldMismatch held r.reserved) else none

end StockRecord

end Stockroom
