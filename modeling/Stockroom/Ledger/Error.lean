import Stockroom.Store.Error

/-! Why a ledger operation fails: a rule of the stock refuses it, the record kept changing until the
retry budget ran out, or the store failed. -/
namespace Stockroom
set_option autoImplicit false

inductive LedgerError where
  | stock (cause : StockError)
  | concurrencyConflict (sku : SkuCode) (attempts : Nat)
  | store (cause : StoreError)
  deriving DecidableEq

namespace LedgerError

def message : LedgerError → String
  | .stock e => e.message
  | .concurrencyConflict sku attempts =>
    "concurrency conflict on " ++ sku.text ++ " after " ++ Text.showNat attempts ++ " attempt(s)"
  | .store e => "store failure: " ++ e.message

/-- Whether the same operation may succeed when tried again. -/
def isRetryable : LedgerError → Bool
  | .concurrencyConflict .. => true
  | _ => false

def isStock : LedgerError → Bool
  | .stock _ => true
  | _ => false

/-- A taken or unknown key is a matter of the stock's rules. -/
def ofStore : StoreError → LedgerError
  | .conflict sku _ _ => .concurrencyConflict sku 1
  | .duplicateKey sku => .stock (.alreadyExists sku)
  | .notFound sku => .stock (.notFound sku)
  | .unfit cause => .store (.unfit cause)
  | .backend text => .store (.backend text)

theorem isRetryable_ofStore_iff (e : StoreError) :
    (ofStore e).isRetryable = true ↔ ∃ sku expected actual, e = .conflict sku expected actual := by
  cases e <;> simp [ofStore, isRetryable]

end LedgerError

end Stockroom
