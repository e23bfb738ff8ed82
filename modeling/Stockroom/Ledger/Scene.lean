import Stockroom.Ledger.Program
import Stockroom.Movement.Decision
import Stockroom.Store.Basic

/-! Scripted surroundings of a ledger. The store can be made to fail at chosen calls, or to be
written by somebody else just before them; the clock moves on by a tick at every reading; the bus
takes or refuses each message as it is told. A scene keeps account of what has been asked of it. -/
namespace Stockroom.Ledger
set_option autoImplicit false

/-- What happens at one call of the store. -/
inductive Interference where
  | pass
  /-- The call does nothing and fails. -/
  | fail (error : StoreError)
  /-- Another writer first commits commands to the record in question. -/
  | compete (commands : List Command)
  deriving DecidableEq

/-- How often each call of the store was made. -/
structure CallCounts where
  load : Nat
  insert : Nat
  swap : Nat
  scan : Nat
  deriving DecidableEq

def CallCounts.zero : CallCounts := ⟨0, 0, 0, 0⟩

/-- For each call of the store, what is to happen at its next uses. -/
structure Script where
  load : List Interference
  insert : List Interference
  swap : List Interference
  scan : List Interference
  deriving DecidableEq

def Script.quiet : Script := ⟨[], [], [], []⟩

structure Scene where
  store : Store
  script : Script
  now : Timestamp
  /-- Nanoseconds by which the clock moves on at every reading. -/
  tick : Int
  /-- What the bus says to each message, counted from zero: nothing to one that it takes. -/
  bus : Nat → Option String
  /-- How many identifiers have been given out. -/
  issued : Nat
  /-- How many messages the bus has been offered. -/
  offers : Nat
  calls : CallCounts
  offered : List Envelope
  /-- The offered messages that the bus took. -/
  published : List Envelope
  log : List LogEntry

namespace Scene

/-- An empty store with a quiet script. -/
def start (now : Timestamp) (bus : Nat → Option String) : Scene where
  store := .empty
  script := .quiet
  now := now
  tick := 0
  bus := bus
  issued := 0
  offers := 0
  calls := .zero
  offered := []
  published := []
  log := []

/-- The scene with its account cleared. -/
def turnPage (s : Scene) : Scene :=
  { s with calls := .zero, offered := [], published := [], log := [] }

/-- Offers a message to the bus. -/
def offer (s : Scene) (envelope : Envelope) : Option String × Scene :=
  let said := s.bus s.offers
  (said, { s with
    offers := s.offers + 1
    offered := s.offered ++ [envelope]
    published := if said.isNone then s.published ++ [envelope] else s.published })

/-- One command of another writer: decided on the stored record and committed at its version, even
if there is nothing to do. A refused command, or one on an unknown unit, is passed over. -/
def rival (sku : SkuCode) (store : Store) (c : Command) : Store :=
  match store.load sku with
  | none => store
  | some current =>
    match current.execute c with
    | .error _ => store
    | .ok (candidate, _) =>
      match store.swap candidate (.exactly current.version) with
      | .error _ => store
      | .ok (_, next) => next

/-- What an interference makes of the store, or the failure it causes. -/
def interfere (store : Store) (sku : Option SkuCode) : Interference → Except StoreError Store
  | .pass => .ok store
  | .fail e => .error e
  | .compete commands =>
    match sku with
    | none => .ok store
    | some sku => .ok (commands.foldl (rival sku) store)

/-- Takes the next interference of a script off it. -/
def next (script : List Interference) : Interference × List Interference :=
  match script with
  | [] => (.pass, [])
  | i :: rest => (i, rest)

/-- A call of the store behind its interference. -/
def callStore {α : Type} (s : Scene) (i : Interference) (sku : Option SkuCode)
    (work : Store → Except StoreError (α × Store)) : Except StoreError α × Scene :=
  match interfere s.store sku i with
  | .error e => (.error e, s)
  | .ok store =>
    match work store with
    | .error e => (.error e, { s with store := store })
    | .ok (a, store) => (.ok a, { s with store := store })

/-- The answer to a question, and the scene afterwards. -/
def answer : (q : Request) → Scene → q.Reply × Scene
  | .load sku, s =>
    let (i, rest) := next s.script.load
    callStore { s with script.load := rest, calls.load := s.calls.load + 1 } i (some sku)
      fun store => .ok (store.load sku, store)
  | .insert record, s =>
    let (i, rest) := next s.script.insert
    callStore { s with script.insert := rest, calls.insert := s.calls.insert + 1 } i
      (some record.sku)
      fun store => store.insert record
  | .swap candidate expected, s =>
    let (i, rest) := next s.script.swap
    callStore { s with script.swap := rest, calls.swap := s.calls.swap + 1 } i (some candidate.sku)
      fun store => store.swap candidate expected
  | .scan, s =>
    let (i, rest) := next s.script.scan
    callStore { s with script.scan := rest, calls.scan := s.calls.scan + 1 } i none
      fun store => .ok (store.scan, store)
  | .clock, s => (s.now, { s with now := (s.now.shift? s.tick).getD s.now })
  | .freshId, s => (Uuid.ofNat s.issued, { s with issued := s.issued + 1 })
  | .publish envelope, s => s.offer envelope
  | .note entry, s => ((), { s with log := s.log ++ [entry] })
  | .draw bound, s => ((⟨0, Nat.succ_pos bound⟩ : Fin (bound + 1)), s)
  | .elapsed, s => ((0 : Nat), s)
  | .wait _, s => ((), s)

/-- Lets a program run in the scene. -/
def play {α : Type} (s : Scene) (p : Program α) : α × Scene := p.run answer s

end Scene

end Stockroom.Ledger
