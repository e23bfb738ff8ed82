import Stockroom.Proofs.Movement.History
import Stockroom.Proofs.Numeric.Product

/-! The stock value is never lost. Only a creation and a correction check that the units on hand can
be valued; a consumption need not, for it leaves fewer of them, and what can be valued in a greater
number can in a smaller one. -/
namespace Stockroom.StockRecord
set_option autoImplicit false

variable {r : StockRecord}

/-- The units on hand can be valued, if they have a cost. -/
def Valuable (r : StockRecord) : Prop :=
  r.unitCost.isSome = true → (stockValue r.unitCost r.onHand).isSome = true

theorem valuable_empty (id : RecordId) (sku : SkuCode) : (empty id sku).Valuable := nofun

theorem isSome_stockValue_of_le {unitCost : Option Decimal} {x y : Int}
    (hc : ∀ cost ∈ unitCost, cost.isNegative = false) (hx : 0 ≤ x) (hy : x ≤ y)
    (h : (stockValue unitCost y).isSome = true) : (stockValue unitCost x).isSome = true := by
  cases unitCost with
  | none => exact h
  | some cost =>
    obtain ⟨b, hb⟩ := Option.isSome_iff_exists.1 h
    have worth : 0 ≤ cost.value := Decimal.value_nonneg_iff.2 (Or.inl (hc cost rfl))
    obtain ⟨a, ha, -⟩ := Decimal.timesInt?_mono worth hx hy hb
    exact Option.isSome_iff_exists.2 ⟨a, ha⟩

theorem Valuable.apply {e : Event} (h : r.Valuable) (hw : r.WellFormed) (hf : e.change.Fits r) :
    (r.apply e).Valuable := by
  have next : (r.apply e).WellFormed := hw.apply hf
  obtain ⟨c, t⟩ := e
  cases c with
  | created id sku details =>
    obtain ⟨-, -, -, -, -, -, checked⟩ := hf
    exact checked
  | consumed id q held =>
    obtain ⟨hc, x, -, -, h0, -, -⟩ := hf
    have left := next.sound.reserved_nonneg.trans next.sound.reserved_le
    have fewer : r.onHand - q ≤ r.onHand := by omega
    exact fun hu => isSome_stockValue_of_le (hw.created hc).2 left fewer (h hu)
  | adjusted delta reason reference =>
    obtain ⟨-, -, -, -, -, checked⟩ := hf
    have h1 : (r.adjust delta t).onHand = r.onHand + delta := by rw [adjust_eq]
    have h2 : (r.adjust delta t).unitCost = r.unitCost := by rw [adjust_eq]
    show (r.adjust delta t).unitCost.isSome = true →
      (stockValue (r.adjust delta t).unitCost (r.adjust delta t).onHand).isSome = true
    rw [h1, h2]
    exact checked
  | _ => exact h

theorem valuable_run (id : RecordId) (sku : SkuCode) (cs : List Command) :
    ((empty id sku).run cs).Valuable := by
  have hw := wellFormed_empty id sku
  rw [run_eq_applyAll]
  exact @WellFormed.applyAll_induction _ _ (fun _ r => r.Valuable) []
    (fun _ r e hw hf h => h.apply hw hf) hw (hw.fitsAll_history cs) (valuable_empty id sku)

/-- However a record is run, it has a total value just if it has a unit cost. This rests on the
products: what is worth nothing or more and can be valued in a greater number can be valued in a
smaller one, at no greater value, however many places either value has given up. -/
theorem isSome_totalValue_run :
    (∀ id sku cs, ((empty id sku).run cs).totalValue.isSome =
      ((empty id sku).run cs).unitCost.isSome) ∧
      ∀ (cost : Decimal) (m n : Int) (more : Decimal), 0 ≤ cost.value → 0 ≤ m → m ≤ n →
        stockValue (some cost) n = some more →
          ∃ less, stockValue (some cost) m = some less ∧ less.value ≤ more.value := by
  refine ⟨fun id sku cs => ?_, fun cost m n more hc hm hn h => Decimal.timesInt?_mono hc hm hn h⟩
  have hw : ((empty id sku).run cs).WellFormed := (wellFormed_empty id sku).run cs
  have hv := valuable_run id sku cs
  generalize (empty id sku).run cs = r at hw hv
  rw [hw.valued]
  cases hu : r.unitCost with
  | none => rfl
  | some cost =>
    unfold Valuable at hv
    rw [hu] at hv
    exact hv rfl

/-- A price of so many digits that two units can be valued to its last place, and three cannot. -/
def longPrice : Decimal := (Decimal.make? false 39614081257132168796771975167 2).get (by decide)

theorem isSome_totalValue_run_longPrice :
    (stockValue (some longPrice) 2).map Decimal.scale = some 2 ∧
      (stockValue (some longPrice) 3).map Decimal.scale = some 1 ∧
      ∃ less more, stockValue (some longPrice) 2 = some less ∧
        stockValue (some longPrice) 3 = some more ∧
        less.value ≤ more.value := by
  have worth : 0 ≤ longPrice.value := Decimal.value_nonneg_iff.2 (Or.inl (by decide))
  have h2 : (stockValue (some longPrice) 2).map Decimal.scale = some 2 := by decide +kernel
  have h3 : (stockValue (some longPrice) 3).map Decimal.scale = some 1 := by decide +kernel
  obtain ⟨more, hm, -⟩ := Option.map_eq_some_iff.1 h3
  obtain ⟨less, hl, hv⟩ :=
    isSome_totalValue_run.2 longPrice 2 3 more worth (by decide) (by decide) hm
  exact ⟨h2, h3, less, more, hl, hm, hv⟩

end Stockroom.StockRecord
