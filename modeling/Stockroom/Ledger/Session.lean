import Stockroom.Ledger.Solo

/-! Sessions of a ledger: calls about single units, served one after the other over one store
and one bus. A call brings with it what it will be told by the clock, by the source of
identifiers and by chance. -/
namespace Stockroom.Ledger
set_option autoImplicit false

/-- The operations on a single unit. -/
inductive Service where
  | perform (task : Task)
  | get (sku : SkuCode)
  | status (sku : SkuCode)
  | reservation (sku : SkuCode) (id : ReservationId)

inductive Response where
  | record (result : Except LedgerError StockRecord)
  | status (result : Except LedgerError StockStatus)
  | reservation (result : Except LedgerError Reservation)

namespace Service

def sku : Service → SkuCode
  | .perform task => task.sku
  | .get sku => sku
  | .status sku => sku
  | .reservation sku _ => sku

def program (config : LedgerConfig) : Service → Program Response
  | .perform task => do return .record (← task.program config)
  | .get sku => do return .record (← Ledger.get sku)
  | .status sku => do return .status (← Ledger.status sku)
  | .reservation sku id => do return .reservation (← Ledger.reservation sku id)

end Service

structure Visit where
  config : LedgerConfig
  /-- The answers to its questions to neither store nor bus, by the number of the question. -/
  world : Nat → (q : Request) → q.Reply
  service : Service

namespace Visit

def sku (v : Visit) : SkuCode := v.service.sku

def program (v : Visit) : Program Response := v.service.program v.config

end Visit

structure Session where
  store : Store
  /-- Every message handed to the bus so far, oldest first. -/
  offered : List Envelope

namespace Session

/-- Serves one call from its first question to its end. -/
def serve (bus : List Envelope → Envelope → Option String) (s : Session)
    (v : Visit) : Response × Session :=
  let ended := v.program.run (Solo.answer ⟨v.world, bus⟩) ⟨s.store, 0, s.offered⟩
  (ended.1, ⟨ended.2.store, ended.2.offered⟩)

/-- The responses to calls, each with the unit that was asked about. -/
def responses (bus : List Envelope → Envelope → Option String) (s : Session) :
    List Visit → List (SkuCode × Response)
  | [] => []
  | v :: vs => (v.sku, (s.serve bus v).1) :: (s.serve bus v).2.responses bus vs

def run (bus : List Envelope → Envelope → Option String) (s : Session) : List Visit → Session
  | [] => s
  | v :: vs => (s.serve bus v).2.run bus vs

end Session

end Stockroom.Ledger
