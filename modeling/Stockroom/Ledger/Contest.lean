import Stockroom.Ledger.Floor

/-! One program in contest with others over a store. Each load begins a round: it may be
made to fail, others may write once it has been answered, and the swap of the round may
be made to fail as well. -/
namespace Stockroom.Ledger
set_option autoImplicit false

structure Round where
  loadFault : Option StoreError
  /-- What others make of the store between the load and the swap. -/
  meddle : Store → Store
  now : Timestamp
  swapFault : Option StoreError

namespace Round

def load (x : Round) (sku : SkuCode) (s : Store) : Except StoreError (Option StockRecord) :=
  match x.loadFault with
  | some e => .error e
  | none => .ok (s.load sku)

/-- A swap that fails leaves the store as it is. -/
def swap (x : Round) (candidate : StockRecord) (expected : ExpectedVersion) (s : Store) :
    Except StoreError StockRecord × Store :=
  match x.swapFault with
  | some e => (.error e, s)
  | none =>
    match s.swap candidate expected with
    | .ok (record, next) => (.ok record, next)
    | .error e => (.error e, s)

end Round

/-- The surroundings of a program in contest: `world` gives the answers that no round gives. -/
structure Contest where
  round : Nat → Round
  world : Nat → (q : Request) → q.Reply

structure Contested where
  store : Store
  /-- How many rounds have begun. -/
  rounds : Nat
  /-- The round that began last. -/
  current : Round
  asked : Nat

namespace Contest

def answer (w : Contest) : (q : Request) → Contested → q.Reply × Contested
  | .load sku, t =>
    ((w.round t.rounds).load sku t.store,
      { t with
        store := (w.round t.rounds).meddle t.store
        rounds := t.rounds + 1
        current := w.round t.rounds })
  | .clock, t => (t.current.now, t)
  | .swap candidate expected, t =>
    ((t.current.swap candidate expected t.store).1,
      { t with store := (t.current.swap candidate expected t.store).2 })
  | .note _, t => ((), t)
  | q, t =>
    ((t.store.answer (w.world t.asked) q).1,
      { t with store := (t.store.answer (w.world t.asked) q).2, asked := t.asked + 1 })

/-- Runs a program in the contest, from its first question to its end. -/
def run {α : Type} (w : Contest) (s : Store) (p : Program α) : α × Contested :=
  p.run w.answer ⟨s, 0, w.round 0, 0⟩

end Contest

end Stockroom.Ledger
