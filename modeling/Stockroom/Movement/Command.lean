import Stockroom.Record.Basic

/-! Commands: what may be asked of a stock record. A command is an action and
the moment it is taken. -/
namespace Stockroom
set_option autoImplicit false

/-- The particulars that a stock record starts with. -/
structure ItemDetails where
  productId : ProductId
  onHand : Int
  thresholds : Thresholds
  unitCost : Option Decimal
  location : Option String
  nextRestockAt : Option Timestamp
  deriving DecidableEq

inductive Action where
  | create (details : ItemDetails)
  | reserve (id : ReservationId) (quantity : Int) (notes : Option String)
    (expiresAt : Option Timestamp)
  | release (id : ReservationId) (quantity : Int) (reason : Option String)
  /-- Ships units of a reservation and closes it; units it holds beyond them
  return to availability. -/
  | consume (id : ReservationId) (quantity : Int)
  /-- A signed correction of the units on hand. -/
  | adjust (delta : Int) (reason reference : Option String)
  | expire
  | deactivate (reason : Option String)
  deriving DecidableEq

structure Command where
  action : Action
  occurredAt : Timestamp
  deriving DecidableEq

/-- The name of the operation. -/
def Action.name : Action → String
  | .create _ => "create_item"
  | .reserve .. => "reserve"
  | .release .. => "release"
  | .consume .. => "consume_reserved"
  | .adjust .. => "adjust_inventory"
  | .expire => "expire_reservations"
  | .deactivate _ => "deactivate"

def Command.name (c : Command) : String := c.action.name

end Stockroom
