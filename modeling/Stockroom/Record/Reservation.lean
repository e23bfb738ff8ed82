import Stockroom.Identifier.Keys
import Stockroom.Time.Timestamp

/-! Reservations: holds on available stock for one outside workflow each. A reservation is held
until it is consumed or released; both ends are final and leave it holding nothing. -/
namespace Stockroom
set_option autoImplicit false

inductive ReservationState where
  | held
  | consumed
  | released
  deriving DecidableEq

namespace ReservationState

def name : ReservationState → String
  | .held => "held"
  | .consumed => "consumed"
  | .released => "released"

def isFinal (s : ReservationState) : Bool := s != .held

end ReservationState

inductive ReleaseReason where
  /-- Given up by the workflow that placed the hold. -/
  | cancelled (reason : Option String)
  /-- Reclaimed after its expiry. -/
  | expired
  deriving DecidableEq

structure Reservation where
  id : ReservationId
  state : ReservationState
  /-- Units held at present. -/
  quantity : Int
  /-- Units held when the reservation was placed. -/
  originalQuantity : Int
  /-- Units that left the stock. -/
  consumedQuantity : Int
  notes : Option String
  createdAt : Timestamp
  expiresAt : Option Timestamp
  closedAt : Option Timestamp
  releaseReason : Option ReleaseReason
  deriving DecidableEq

namespace Reservation

def place (id : ReservationId) (quantity : Int) (notes : Option String) (createdAt : Timestamp)
    (expiresAt : Option Timestamp) : Reservation where
  id := id
  state := .held
  quantity := quantity
  originalQuantity := quantity
  consumedQuantity := 0
  notes := notes
  createdAt := createdAt
  expiresAt := expiresAt
  closedAt := none
  releaseReason := none

def isHeld (r : Reservation) : Bool := r.state == .held

/-- The moment of expiry counts as expired; without an expiry a reservation never expires. -/
def isExpiredAt (r : Reservation) (now : Timestamp) : Bool :=
  match r.expiresAt with
  | some t => decide (t ≤ now)
  | none => false

/-- Held, and past its expiry. -/
def isStaleAt (r : Reservation) (now : Timestamp) : Bool := r.isHeld && r.isExpiredAt now

def close (r : Reservation) (state : ReservationState) (moment : Timestamp) : Reservation :=
  { r with state := state, quantity := 0, closedAt := some moment }

/-- The units a reservation holds: its quantity while it is held, none afterwards. -/
def heldQuantity (r : Reservation) : Int := if r.isHeld then r.quantity else 0

theorem quantity_close (r : Reservation) (s : ReservationState) (t : Timestamp) :
    (r.close s t).quantity = 0 := rfl

end Reservation

end Stockroom
