import Stockroom.Record.Basic

/-! Expected versions, and why a store fails. -/
namespace Stockroom
set_option autoImplicit false

/-- What a conditional write expects of the stored version. -/
inductive ExpectedVersion where
  | any
  | exactly (version : Nat)
  deriving DecidableEq

def ExpectedVersion.matches : ExpectedVersion → Nat → Bool
  | .any, _ => true
  | .exactly v, actual => v == actual

def ExpectedVersion.message : ExpectedVersion → String
  | .any => "Any"
  | .exactly v => "Exact(" ++ Text.showNat v ++ ")"

/-- Why a record may not be stored. -/
inductive Unfitness where
  | notFresh (sku : SkuCode)
  | inconsistent (sku : SkuCode) (cause : Inconsistency)
  | idChanged (sku : SkuCode)
  | stated (text : String)
  deriving DecidableEq

def Unfitness.message : Unfitness → String
  | .notFresh sku => sku.text ++ ": only freshly created records can be inserted"
  | .inconsistent sku cause => sku.text ++ ": " ++ cause.message
  | .idChanged sku => sku.text ++ ": record id cannot change"
  | .stated text => text

/-- Failures of a store, as opposed to refusals by the rules of the stock. Only conflicts are
expected in normal operation. -/
inductive StoreError where
  | conflict (sku : SkuCode) (expected : ExpectedVersion) (actual : Nat)
  | duplicateKey (sku : SkuCode)
  | notFound (sku : SkuCode)
  | unfit (cause : Unfitness)
  | backend (text : String)
  deriving DecidableEq

def StoreError.message : StoreError → String
  | .conflict sku expected actual =>
    "optimistic concurrency check failed for " ++ sku.text ++ ": expected " ++
      expected.message ++ ", found " ++
      Text.showNat actual
  | .duplicateKey sku => "record already exists: " ++ sku.text
  | .notFound sku => "record not found: " ++ sku.text
  | .unfit cause => "refusing to persist inconsistent record: " ++ cause.message
  | .backend text => "storage backend failure: " ++ text

end Stockroom
