import Stockroom.Proofs.Ledger.Rivalry

/-! The listing of low stock. It goes through all records, while the status of a unit is made of the
one record that is loaded. A lawful store shows each record once in the order of the units, and
under its own unit, so the two agree. -/
namespace Stockroom
set_option autoImplicit false

namespace StockRecord

variable {r : StockRecord} {e : LowStockEntry}

theorem lowStockEntry?_eq_some_iff : r.lowStockEntry? = some e ↔
    (r.isActive = true ∧ r.isLowStock = true) ∧
      e = ⟨r.sku, r.available, r.thresholds.lowStock⟩ := by
  unfold lowStockEntry?
  rw [← Bool.and_eq_true]
  split
  · rename_i listed
    rw [Option.some_inj, and_iff_right listed, eq_comm]
  · rename_i unlisted
    simp [unlisted]

theorem isLowStock_iff : r.isLowStock = true ↔ r.available ≤ r.thresholds.lowStock :=
  decide_eq_true_iff

theorem sku_of_lowStockEntry? (h : r.lowStockEntry? = some e) : e.sku = r.sku := by
  rw [(lowStockEntry?_eq_some_iff.1 h).2]

end StockRecord

namespace Ledger

variable {s : Store} {w : World} {sku : SkuCode}

/-! ## Entries -/

theorem ascending_lowStockEntries (hs : s.Lawful) :
    (lowStockEntries s.scan).Pairwise fun a b => a.sku.text < b.sku.text := by
  refine List.pairwise_filterMap.2 (hs.ascending_scan.imp fun {a b} lt => ?_)
  intro x hx y hy
  rw [StockRecord.sku_of_lowStockEntry? hx, StockRecord.sku_of_lowStockEntry? hy]
  exact lt

/-- A row is of the record that is stored under its unit. -/
theorem mem_lowStockEntries_iff (hs : s.Lawful) {e : LowStockEntry} :
    e ∈ lowStockEntries s.scan ↔ ∃ r, s.load e.sku = some r ∧ r.lowStockEntry? = some e := by
  unfold lowStockEntries
  rw [List.mem_filterMap]
  refine exists_congr fun r => and_congr_left fun listed => ?_
  rw [hs.mem_scan_iff, StockRecord.sku_of_lowStockEntry? listed]

/-! ## Answers -/

theorem run_lowStock (w : World) (s : Store) :
    Solo.run w s lowStock = (.ok (lowStockEntries s.scan), ⟨s, 1, []⟩) := rfl

theorem run_get (w : World) (s : Store) (sku : SkuCode) :
    Solo.run w s (get sku) =
      ((s.load sku).elim (.error (.stock (.notFound sku))) .ok, ⟨s, 1, []⟩) := by
  have loaded : Solo.answer w (.load sku) ⟨s, 0, []⟩ = (.ok (s.load sku), ⟨s, 1, []⟩) := rfl
  unfold Solo.run get
  refine (Program.run_request_bind _ _ _ _).trans ?_
  rw [loaded]
  cases s.load sku <;> rfl

theorem run_status (w : World) (s : Store) (sku : SkuCode) : Solo.run w s (status sku) =
    ((s.load sku).elim (.error (.stock (.notFound sku))) fun r => .ok r.status, ⟨s, 1, []⟩) := by
  have loaded : Program.run (Solo.answer w) (get sku) ⟨s, 0, []⟩ = _ := run_get w s sku
  unfold Solo.run status
  rw [Program.run_seq, loaded]
  cases s.load sku <;> rfl

theorem run_status_eq_ok_iff {st : StockStatus} :
    (Solo.run w s (status sku)).1 = .ok st ↔ ∃ r, s.load sku = some r ∧ st = r.status := by
  rw [run_status]
  cases s.load sku with
  | none => simp
  | some r => simp [eq_comm]

/-! ## Agreement -/

/-- The rows of a listing of low stock: the units in their order, each once, that their
own status reports as active and low, and with each the available units and the level at
or below which they are. -/
structure Lists (s : Store) (entries : List LowStockEntry) : Prop where
  ascending : entries.Pairwise fun a b => a.sku.text < b.sku.text
  mem_iff : ∀ w sku, (∃ e ∈ entries, e.sku = sku) ↔
    ∃ st, (Solo.run w s (status sku)).1 = .ok st ∧ st.isActive = true ∧ st.isLowStock = true
  shown : ∀ e ∈ entries, ∃ r, s.load e.sku = some r ∧ e.available = r.onHand - r.reserved ∧
    e.threshold = r.thresholds.lowStock ∧ e.available ≤ e.threshold

theorem lists_scan (hs : s.Lawful) : Lists s (lowStockEntries s.scan) where
  ascending := ascending_lowStockEntries hs
  mem_iff w sku := by
    simp only [run_status_eq_ok_iff, mem_lowStockEntries_iff hs,
      StockRecord.lowStockEntry?_eq_some_iff]
    constructor
    · rintro ⟨e, ⟨r, hr, low, -⟩, rfl⟩
      exact ⟨r.status, ⟨r, hr, rfl⟩, low⟩
    · rintro ⟨st, ⟨r, hr, rfl⟩, low⟩
      have hk : r.sku = sku := (hs sku r hr).sku_eq
      exact ⟨⟨r.sku, r.available, r.thresholds.lowStock⟩, ⟨r, hk ▸ hr, low, rfl⟩, hk⟩
  shown e he := by
    obtain ⟨r, hr, listed⟩ := (mem_lowStockEntries_iff hs).1 he
    obtain ⟨⟨-, low⟩, rfl⟩ := StockRecord.lowStockEntry?_eq_some_iff.1 listed
    exact ⟨r, hr, (hs _ r hr).wellFormed.available_eq, rfl, StockRecord.isLowStock_iff.1 low⟩

/-- Whatever calls have led to the store, the listing of its low stock agrees with
the status of each unit. -/
theorem lists_reached (errands : List Errand) (turns : List Turn) (w : World) :
    ∃ entries, (Solo.run w (reached errands turns) lowStock).1 = .ok entries ∧
      (Solo.run w (reached errands turns) lowStock).2.store = reached errands turns ∧
      Lists (reached errands turns) entries := by
  refine ⟨lowStockEntries (reached errands turns).scan, ?_, ?_,
    lists_scan (lawful_reached errands turns)⟩
  · rw [run_lowStock]
  · rw [run_lowStock]

end Ledger

end Stockroom
