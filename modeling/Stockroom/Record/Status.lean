import Stockroom.Record.Basic

/-! Stock flags and listings, derived from a record on demand. The
threshold itself counts as low. -/
namespace Stockroom
set_option autoImplicit false

/-- The stock of one unit at one moment. -/
structure StockStatus where
  sku : SkuCode
  onHand : Int
  reserved : Int
  available : Int
  isLowStock : Bool
  needsRestock : Bool
  isActive : Bool
  version : Nat
  deriving DecidableEq

/-- A row of the low-stock listing. -/
structure LowStockEntry where
  sku : SkuCode
  available : Int
  threshold : Int
  deriving DecidableEq

namespace StockRecord

def isLowStock (r : StockRecord) : Bool := r.available ≤ r.thresholds.lowStock

def needsRestock (r : StockRecord) : Bool := r.available ≤ r.thresholds.restock

def canFulfill (r : StockRecord) (quantity : Int) : Bool := quantity ≤ r.available

def status (r : StockRecord) : StockStatus where
  sku := r.sku
  onHand := r.onHand
  reserved := r.reserved
  available := r.available
  isLowStock := r.isLowStock
  needsRestock := r.needsRestock
  isActive := r.isActive
  version := r.version

/-- The row of an active record at or below its threshold. -/
def lowStockEntry? (r : StockRecord) : Option LowStockEntry :=
  if r.isActive && r.isLowStock then some ⟨r.sku, r.available, r.thresholds.lowStock⟩ else none

end StockRecord

/-- The rows of the records that have one, in the records' order. -/
def lowStockEntries (records : List StockRecord) : List LowStockEntry :=
  records.filterMap StockRecord.lowStockEntry?

end Stockroom
