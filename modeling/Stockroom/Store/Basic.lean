import Stockroom.Store.Error

/-! The store of stock records, one record for each unit. A first write needs a fresh record and
gives it version 1; every later write is conditional on the stored version and raises it by one.
Only consistent records are stored, and a failing write leaves the store as it is. -/
namespace Stockroom
set_option autoImplicit false

structure Store where
  records : KeyMap SkuCode StockRecord
  deriving DecidableEq

namespace Store

def empty : Store := ⟨.empty⟩

def size (s : Store) : Nat := s.records.size

def isEmpty (s : Store) : Bool := s.size == 0

def load (s : Store) (sku : SkuCode) : Option StockRecord := s.records.get? sku

/-- All records in ascending order of their units. -/
def scan (s : Store) : List StockRecord := s.records.values

def put (s : Store) (r : StockRecord) : Store := ⟨s.records.insert r.sku r⟩

/-- Stores a fresh record under its unit at version 1. Returns the record as stored. -/
def insert (s : Store) (r : StockRecord) : Except StoreError (StockRecord × Store) :=
  if r.isCreated = false ∨ r.version ≠ 0 then .error (.unfit (.notFresh r.sku))
  else
    match r.inconsistency? with
    | some cause => .error (.unfit (.inconsistent r.sku cause))
    | none =>
      match s.load r.sku with
      | some _ => .error (.duplicateKey r.sku)
      | none => .ok (r.atVersion 1, s.put (r.atVersion 1))

/-- Replaces the stored record if its version is as expected. Returns the record as stored. -/
def swap (s : Store) (candidate : StockRecord) (expected : ExpectedVersion) :
    Except StoreError (StockRecord × Store) :=
  match candidate.inconsistency? with
  | some cause => .error (.unfit (.inconsistent candidate.sku cause))
  | none =>
    match s.load candidate.sku with
    | none => .error (.notFound candidate.sku)
    | some current =>
      if expected.matches current.version = false then
        .error (.conflict candidate.sku expected current.version)
      else if current.id ≠ candidate.id then .error (.unfit (.idChanged candidate.sku))
      else .ok (candidate.atVersion (current.version + 1),
        s.put (candidate.atVersion (current.version + 1)))

/-! ## Look-up after a write -/

@[simp] theorem load_empty (sku : SkuCode) : empty.load sku = none := rfl

@[simp] theorem load_put_self (s : Store) (r : StockRecord) : (s.put r).load r.sku = some r := by
  simp [put, load]

theorem load_put_of_ne (s : Store) (r : StockRecord) {sku : SkuCode} (h : sku ≠ r.sku) :
    (s.put r).load sku = s.load sku :=
  KeyMap.get?_insert_of_ne s.records r fun e => h (TextKey.text_injective _ _ e)

end Store

end Stockroom
