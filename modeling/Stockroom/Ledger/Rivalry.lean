import Stockroom.Ledger.Solo

/-! One program among rivals. Before each of its questions is answered, others may give commands
to units of the store, each of which is carried out in one step. What the program itself has
written is kept account of. -/
namespace Stockroom
set_option autoImplicit false

/-- A command to a unit, and the identifier of its record should it not be there yet. -/
structure Order where
  sku : SkuCode
  id : Uuid
  command : Command

/-- Carries out an order; one that is refused is passed over. -/
def Store.obey (s : Store) (o : Order) : Store :=
  match ((s.load o.sku).getD (.empty ⟨o.id⟩ o.sku)).execute o.command with
  | .error _ => s
  | .ok (candidate, _) => s.put (candidate.atVersion (Ledger.versionOf (s.load o.sku) + 1))

def Store.obeyAll (s : Store) (os : List Order) : Store := os.foldl Store.obey s

namespace Ledger

structure Rivalry extends World where
  /-- What others order before a question is answered, by its number, the question and the store. -/
  rivals : Nat → Request → Store → List Order

structure Rivaled extends Solo where
  /-- The records that the program itself has written, oldest first. -/
  written : List StockRecord

namespace Rivalry

/-- The store once others have been before a question. -/
def meddled (w : Rivalry) (q : Request) (t : Rivaled) : Store :=
  t.store.obeyAll (w.rivals t.asked q t.store)

def answer (w : Rivalry) (q : Request) (t : Rivaled) : q.Reply × Rivaled :=
  let answered := Solo.answer w.toWorld q { t.toSolo with store := w.meddled q t }
  (answered.1, ⟨answered.2, t.written ++ (q.written? answered.1).toList⟩)

/-- Runs a program among rivals, from its first question to its end. -/
def run {α : Type} (w : Rivalry) (s : Store) (p : Program α) : α × Rivaled :=
  p.run w.answer ⟨⟨s, 0, []⟩, []⟩

end Rivalry

end Ledger

end Stockroom
