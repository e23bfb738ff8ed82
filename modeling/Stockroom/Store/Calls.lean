import Stockroom.Store.Basic

/-! Writes to a store, one call after the other. Each call is answered, and one that is refused
leaves the store as it is. -/
namespace Stockroom.Store
set_option autoImplicit false

inductive Call where
  | insert (record : StockRecord)
  | swap (candidate : StockRecord) (expected : ExpectedVersion)

namespace Call

/-- The record that a call would have stored. -/
def record : Call → StockRecord
  | .insert record => record
  | .swap candidate _ => candidate

def sku (c : Call) : SkuCode := c.record.sku

def isSwap : Call → Bool
  | .insert _ => false
  | .swap _ _ => true

/-- The calls for one unit. -/
def ofUnit (sku : SkuCode) (cs : List Call) : List Call := cs.filter fun c => c.sku = sku

end Call

/-- What a call writes and the store after it, or why it is refused. -/
def attempt (s : Store) : Call → Except StoreError (StockRecord × Store)
  | .insert record => s.insert record
  | .swap candidate expected => s.swap candidate expected

/-- The answer to a call, and the store after it. -/
def call (s : Store) (c : Call) : Except StoreError StockRecord × Store :=
  match s.attempt c with
  | .ok (stored, next) => (.ok stored, next)
  | .error e => (.error e, s)

def run (s : Store) : List Call → Store
  | [] => s
  | c :: cs => (s.call c).2.run cs

/-- The calls of a list that are not refused. -/
def accepted (s : Store) : List Call → List Call
  | [] => []
  | c :: cs =>
    match s.call c with
    | (.ok _, next) => c :: next.accepted cs
    | (.error _, next) => next.accepted cs

end Stockroom.Store
