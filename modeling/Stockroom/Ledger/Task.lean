import Stockroom.Ledger.Operations

/-! Calls of the operations, as data. A task is a call that writes one unit. Its
program is the operation it calls; `settle` is the same program with the events of its
commit still in the answer. -/
namespace Stockroom.Ledger
set_option autoImplicit false

inductive Task where
  | create (item : NewItem)
  | adjust (sku : SkuCode) (delta : Int) (reason reference : Option String)
  | reserve (sku : SkuCode) (quantity : Int) (id : ReservationId) (notes : Option String)
  | reserveUntil (sku : SkuCode) (quantity : Int) (id : ReservationId) (notes : Option String)
    (expiresAt : Option Timestamp)
  | release (sku : SkuCode) (quantity : Int) (id : ReservationId) (reason : Option String)
  | consume (sku : SkuCode) (quantity : Int) (id : ReservationId)
  | expire (sku : SkuCode)
  | deactivate (sku : SkuCode) (reason : Option String)
  deriving DecidableEq

namespace Task

/-- The unit that a task is about. -/
def sku : Task → SkuCode
  | .create item => item.sku
  | .adjust sku .. => sku
  | .reserve sku .. => sku
  | .reserveUntil sku .. => sku
  | .release sku .. => sku
  | .consume sku .. => sku
  | .expire sku => sku
  | .deactivate sku _ => sku

/-- The command that a task builds at a reading of the clock. -/
def command (config : LedgerConfig) (now : Timestamp) : Task → Except StockError Command
  | .create item => .ok ⟨.create (item.details config), now⟩
  | .adjust _ delta reason reference => .ok ⟨.adjust delta reason reference, now⟩
  | .reserve _ quantity id notes =>
    (expiry config.reservationTtl now).map fun expiresAt =>
      ⟨.reserve id quantity notes expiresAt, now⟩
  | .reserveUntil _ quantity id notes expiresAt => .ok ⟨.reserve id quantity notes expiresAt, now⟩
  | .release _ quantity id reason => .ok ⟨.release id quantity reason, now⟩
  | .consume _ quantity id => .ok ⟨.consume id quantity, now⟩
  | .expire _ => .ok ⟨.expire, now⟩
  | .deactivate _ reason => .ok ⟨.deactivate reason, now⟩

/-- Whether the configuration lets a task begin: a lifetime too long for any shift in
time stops a reservation. -/
def isAdmitted (config : LedgerConfig) : Task → Bool
  | .reserve .. => decide (∀ d ∈ config.reservationTtl, d.nanos ≤ Timestamp.longestShift)
  | _ => true

/-- The program of a task, with all that it commits in its answer. -/
def settle (config : LedgerConfig) (t : Task) : Program (Except LedgerError Commit) :=
  match t with
  | .create item => register config item
  | t =>
    if t.isAdmitted config then commit config t.sku fun now => t.command config now
    else return .error (.stock (.validation .ttlOutOfRange))

/-- The operation that a task calls. -/
def program (config : LedgerConfig) : Task → Program (Except LedgerError StockRecord)
  | .create item => Ledger.create config item
  | .adjust sku delta reason reference => Ledger.adjust config sku delta reason reference
  | .reserve sku quantity id notes => Ledger.reserve config sku quantity id notes
  | .reserveUntil sku quantity id notes expiresAt =>
    Ledger.reserveUntil config sku quantity id notes expiresAt
  | .release sku quantity id reason => Ledger.release config sku quantity id reason
  | .consume sku quantity id => Ledger.consume config sku quantity id
  | .expire sku => Ledger.expire config sku
  | .deactivate sku reason => Ledger.deactivate config sku reason

theorem program_eq (config : LedgerConfig) (t : Task) :
    t.program config = do return (← t.settle config).map Commit.record := by
  cases t with
  | reserve sku quantity id notes =>
    simp only [program, settle, Ledger.reserve, isAdmitted, decide_eq_true_eq]
    split <;> rfl
  | _ => rfl

end Task

/-- A task under the configuration of the ledger that was called. -/
structure Job where
  config : LedgerConfig
  task : Task

def Job.settle (j : Job) : Program (Except LedgerError Commit) := j.task.settle j.config

/-- A call of any operation. -/
inductive Call where
  | perform (task : Task)
  | expireAll
  | get (sku : SkuCode)
  | status (sku : SkuCode)
  | lowStock
  | reservation (sku : SkuCode) (id : ReservationId)
  deriving DecidableEq

/-- The program of a call, whatever it answers. -/
def Call.program (config : LedgerConfig) : Call → Program Unit
  | .perform task => Functor.discard (task.program config)
  | .expireAll => Functor.discard (Ledger.expireAll config)
  | .get sku => Functor.discard (Ledger.get sku)
  | .status sku => Functor.discard (Ledger.status sku)
  | .lowStock => Functor.discard Ledger.lowStock
  | .reservation sku id => Functor.discard (Ledger.reservation sku id)

/-- A call under the configuration of the ledger that was called. -/
structure Errand where
  config : LedgerConfig
  call : Call

def Errand.program (e : Errand) : Program Unit := e.call.program e.config

end Stockroom.Ledger
