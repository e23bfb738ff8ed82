import Stockroom.Ledger.Config
import Stockroom.Ledger.Error
import Stockroom.Ledger.Program
import Stockroom.Movement.Decision
import Stockroom.Record.Status
import Stockroom.Retry.Run

/-! The operations of a ledger. An operation that changes a record loads it, decides its command on
what was loaded, and replaces the record if it still has the loaded version; if not, it starts again
from the load. Nothing is kept from one attempt to the next. Events are published after the write
and never make an operation fail. -/
namespace Stockroom.Ledger
set_option autoImplicit false

open Program (load insert swap scan clock freshId note)

/-! ## Attempts -/

/-- A record as stored after an operation, and the events that led there. -/
structure Commit where
  record : StockRecord
  events : List Event
  deriving DecidableEq

def skuField (sku : SkuCode) : String × LogValue := ("sku", .text sku.text)

/-- One attempt of an operation: load, decide at the time of the clock, swap. Without events
there is nothing to write. -/
def attempt (sku : SkuCode) (command : Timestamp → Except StockError Command) (number : Nat) :
    Program (Except LedgerError Commit) := do
  match ← load sku with
  | .error e => return .error (.ofStore e)
  | .ok none => return .error (.stock (.notFound sku))
  | .ok (some current) =>
    match command (← clock) with
    | .error e => return .error (.stock e)
    | .ok command =>
      match current.execute command with
      | .error e => return .error (.stock e)
      | .ok (_, []) => return .ok ⟨current, []⟩
      | .ok (candidate, events) =>
        match ← swap candidate (.exactly current.version) with
        | .error e =>
          if (LedgerError.ofStore e).isRetryable then
            note (.debug "lost version race"
              [skuField sku, ("attempt", .number number),
                ("loaded_version", .number current.version)])
          return .error (.ofStore e)
        | .ok record =>
          note (.info "stock record committed"
            [skuField sku, ("operation", .text command.name), ("version", .number record.version),
              ("attempt", .number number), ("available", .number record.available)])
          return .ok ⟨record, events⟩

/-- The surroundings of a run of attempts. -/
def surroundings : Retry.Surroundings Program where
  draw := Program.draw
  elapsed := Program.elapsed
  wait := Program.wait
  note := note

/-! ## Publication -/

/-- Publishes one event of a committed record; a failure is logged. -/
def publish (record : StockRecord) (event : Event) : Program Unit := do
  let eventId ← freshId
  match ← Program.publish (.about eventId record event) with
  | none => return ()
  | some failure =>
    note (.warn "event publication failed after commit"
      [skuField record.sku, ("version", .number record.version), ("event_type", .text event.type),
        ("error", .text failure)])

def publishAll (record : StockRecord) : List Event → Program Unit
  | [] => return ()
  | event :: rest => do
    publish record event
    publishAll record rest

/-! ## Commits -/

/-- Attempts under the retry policy, then publication. -/
def commit (config : LedgerConfig) (sku : SkuCode)
    (command : Timestamp → Except StockError Command) :
    Program (Except LedgerError Commit) := do
  match ← Retry.run surroundings config.retry (attempt sku command) LedgerError.isRetryable with
  | .ok committed =>
    publishAll committed.record committed.events
    return .ok committed
  | .error (.fatal e) => return .error e
  | .error (.exhausted attempts _) =>
    note (.warn "retry budget exhausted on version conflicts"
      [skuField sku, ("attempts", .number attempts)])
    return .error (.concurrencyConflict sku attempts)

/-- Commits an action at the time of the clock and returns the record. -/
def perform (config : LedgerConfig) (sku : SkuCode) (action : Action) :
    Program (Except LedgerError StockRecord) := do
  return (← commit config sku fun now => .ok ⟨action, now⟩).map Commit.record

/-! ## Operations -/

/-- An item to be registered. -/
structure NewItem where
  productId : ProductId
  sku : SkuCode
  onHand : Int
  /-- Absent for the configured default. -/
  thresholds : Option Thresholds
  unitCost : Option Decimal
  location : Option String
  nextRestockAt : Option Timestamp
  deriving DecidableEq

def NewItem.details (config : LedgerConfig) (item : NewItem) : ItemDetails where
  productId := item.productId
  onHand := item.onHand
  thresholds := item.thresholds.getD config.defaultThresholds
  unitCost := item.unitCost
  location := item.location
  nextRestockAt := item.nextRestockAt

/-- Registers a new unit at version 1. -/
def register (config : LedgerConfig) (item : NewItem) : Program (Except LedgerError Commit) := do
  let id ← freshId
  let now ← clock
  match (StockRecord.empty ⟨id⟩ item.sku).execute ⟨.create (item.details config), now⟩ with
  | .error e => return .error (.stock e)
  | .ok (candidate, events) =>
    match ← insert candidate with
    | .error e => return .error (.ofStore e)
    | .ok record =>
      note (.info "stock record created"
        [skuField record.sku, ("version", .number record.version),
          ("on_hand", .number record.onHand)])
      publishAll record events
      return .ok ⟨record, events⟩

def create (config : LedgerConfig) (item : NewItem) : Program (Except LedgerError StockRecord) := do
  return (← register config item).map Commit.record

def get (sku : SkuCode) : Program (Except LedgerError StockRecord) := do
  match ← load sku with
  | .error e => return .error (.ofStore e)
  | .ok none => return .error (.stock (.notFound sku))
  | .ok (some record) => return .ok record

def adjust (config : LedgerConfig) (sku : SkuCode) (delta : Int)
    (reason reference : Option String) :
    Program (Except LedgerError StockRecord) :=
  perform config sku (.adjust delta reason reference)

/-- The moment a lifetime ends; `none` for a reservation that never expires. -/
def expiry (ttl : Option Duration) (now : Timestamp) : Except StockError (Option Timestamp) :=
  match ttl with
  | none => .ok none
  | some d =>
    match now.shift? d.nanos with
    | some t => .ok (some t)
    | none => .error (.validation .ttlOutOfRange)

/-- Holds units for the configured lifetime. A lifetime too long for any shift in
time is refused at once. -/
def reserve (config : LedgerConfig) (sku : SkuCode) (quantity : Int) (id : ReservationId)
    (notes : Option String) : Program (Except LedgerError StockRecord) :=
  if ∀ d ∈ config.reservationTtl, d.nanos ≤ Timestamp.longestShift then do
    return (← commit config sku fun now =>
      (expiry config.reservationTtl now).map fun expiresAt =>
        ⟨.reserve id quantity notes expiresAt, now⟩).map Commit.record
  else return .error (.stock (.validation .ttlOutOfRange))

/-- Holds units until a given moment, or for good. -/
def reserveUntil (config : LedgerConfig) (sku : SkuCode) (quantity : Int) (id : ReservationId)
    (notes : Option String) (expiresAt : Option Timestamp) :
    Program (Except LedgerError StockRecord) :=
  perform config sku (.reserve id quantity notes expiresAt)

def release (config : LedgerConfig) (sku : SkuCode) (quantity : Int) (id : ReservationId)
    (reason : Option String) : Program (Except LedgerError StockRecord) :=
  perform config sku (.release id quantity reason)

def consume (config : LedgerConfig) (sku : SkuCode) (quantity : Int) (id : ReservationId) :
    Program (Except LedgerError StockRecord) :=
  perform config sku (.consume id quantity)

def status (sku : SkuCode) : Program (Except LedgerError StockStatus) := do
  return (← get sku).map StockRecord.status

def lowStock : Program (Except LedgerError (List LowStockEntry)) := do
  match ← scan with
  | .error e => return .error (.ofStore e)
  | .ok records => return .ok (lowStockEntries records)

def reservation (sku : SkuCode) (id : ReservationId) :
    Program (Except LedgerError Reservation) := do
  match ← get sku with
  | .error e => return .error e
  | .ok record =>
    match record.reservation? id with
    | none => return .error (.stock (.invalidReservationState id .missing))
    | some r => return .ok r

/-- Releases every hold on the unit that is past its expiry. -/
def expire (config : LedgerConfig) (sku : SkuCode) : Program (Except LedgerError StockRecord) :=
  perform config sku .expire

/-- Sweeps the units whose scanned records have a hold past its expiry, and counts the released
holds. A unit that stays contended is left to the next sweep; any other failure ends the sweep. -/
def sweep (config : LedgerConfig) (now : Timestamp) :
    Nat → List StockRecord → Program (Except LedgerError Nat)
  | released, [] => return .ok released
  | released, record :: rest =>
    if (record.staleHolds now).isEmpty then sweep config now released rest
    else do
      match ← commit config record.sku fun now => .ok ⟨.expire, now⟩ with
      | .ok committed => sweep config now (released + committed.events.length) rest
      | .error (.concurrencyConflict sku attempts) =>
        note (.warn "skipping contended sku in expiry sweep"
          [skuField record.sku,
            ("error", .text (LedgerError.concurrencyConflict sku attempts).message)])
        sweep config now released rest
      | .error e => return .error e

def expireAll (config : LedgerConfig) : Program (Except LedgerError Nat) := do
  let now ← clock
  match ← scan with
  | .error e => return .error (.ofStore e)
  | .ok records =>
    match ← sweep config now 0 records with
    | .error e => return .error e
    | .ok released =>
      if 0 < released then
        note (.info "expired reservations released" [("expired", .number released)])
      return .ok released

/-- Excludes the unit from new reservations. -/
def deactivate (config : LedgerConfig) (sku : SkuCode) (reason : Option String) :
    Program (Except LedgerError StockRecord) :=
  perform config sku (.deactivate reason)

end Stockroom.Ledger
