import Stockroom.Movement.Command

/-! Events: what has happened to a stock record. An event is a change and the moment of the command
that brought it about; it carries all that applying it needs. -/
namespace Stockroom
set_option autoImplicit false

inductive Change where
  | created (recordId : RecordId) (sku : SkuCode) (details : ItemDetails)
  | reserved (id : ReservationId) (quantity : Int) (notes : Option String)
    (expiresAt : Option Timestamp)
  | released (id : ReservationId) (quantity : Int) (reason : Option String)
  /-- `quantity` units left the stock; the reservation held `held` units before. -/
  | consumed (id : ReservationId) (quantity held : Int)
  | expired (id : ReservationId) (quantity : Int)
  | adjusted (delta : Int) (reason reference : Option String)
  | deactivated (reason : Option String)
  deriving DecidableEq

structure Event where
  change : Change
  occurredAt : Timestamp
  deriving DecidableEq

/-- The type under which an event is announced. -/
def Event.type (e : Event) : String :=
  match e.change with
  | .created .. => "inventory.item.created"
  | .reserved .. => "inventory.stock.reserved"
  | .released .. => "inventory.stock.released"
  | .consumed .. => "inventory.stock.consumed"
  | .expired .. => "inventory.stock.reservation_expired"
  | .adjusted .. => "inventory.stock.adjusted"
  | .deactivated _ => "inventory.item.deactivated"

/-- The version of the events' layout. -/
def Event.layoutVersion : Nat := 1

/-- The reservation that a change is about. -/
def Change.reservation? : Change → Option ReservationId
  | .reserved id .. => some id
  | .released id .. => some id
  | .consumed id .. => some id
  | .expired id _ => some id
  | _ => none

end Stockroom
