import Stockroom.Proofs.Movement.Worth
import Stockroom.Proofs.Numeric.Exactness

/-! What a total value is worth. It is the product of unit cost and units on hand, rounded to the
places that its magnitude has room for, and it is exact just if some decimal is that product. A
creation or a correction is refused for its value only where there is no room for the product even
in whole numbers; that digits are rounded away is no reason to refuse it. -/
namespace Stockroom.StockRecord
set_option autoImplicit false

/-- How a total value stands to the exact product of unit cost and units on hand. -/
structure IsPriced (r : StockRecord) : Prop where
  rounded : ∀ cost ∈ r.unitCost, ∃ value ∈ r.totalValue,
    Decimal.Rounds (cost.value * r.onHand) cost.scale value
  exact_iff : ∀ cost ∈ r.unitCost, ∀ value ∈ r.totalValue,
    value.value = cost.value * r.onHand ↔ Decimal.IsRepresentable (cost.value * r.onHand)

variable {r : StockRecord}

theorem WellFormed.isPriced (h : r.WellFormed) (hv : r.Valuable) : r.IsPriced := by
  have product {cost : Decimal} (hc : cost ∈ r.unitCost) :
      r.totalValue = cost.timesInt? r.onHand := by
    rw [h.valued, Option.mem_def.1 hc]
    rfl
  constructor
  · intro cost hc
    have some : (cost.timesInt? r.onHand).isSome = true := by
      rw [← product hc, h.valued]
      exact hv (Option.isSome_iff_exists.2 ⟨cost, hc⟩)
    obtain ⟨value, hp⟩ := Option.isSome_iff_exists.1 some
    exact ⟨value, (product hc).trans hp, Decimal.rounds_of_timesInt? hp⟩
  · intro cost hc value ht
    exact Decimal.value_eq_iff_of_timesInt? ((product hc).symm.trans ht)

theorem ensureValuable_eq_error_iff {cost : Decimal} {n : Int} :
    ensureValuable (some cost) n = .error (.validation .valueOverflow) ↔
      Decimal.Overflows (cost.value * n) 0 := by
  rw [← Decimal.timesInt?_eq_none_iff, ensureValuable, ensure_eq_error_iff]
  simp [stockValue]

/-- However a record is run, its total value is priced so, and only a product without room in
whole numbers is refused. -/
theorem isPriced_run (id : RecordId) (sku : SkuCode) (cs : List Command) (cost : Decimal)
    (n : Int) :
    ((empty id sku).run cs).IsPriced ∧
      (ensureValuable (some cost) n = .error (.validation .valueOverflow) ↔
        Decimal.Overflows (cost.value * n) 0) :=
  ⟨((wellFormed_empty id sku).run cs).isPriced (valuable_run id sku cs),
    ensureValuable_eq_error_iff⟩

/-- A price with a digit in the last of 28 places. -/
def finePrice : Decimal := (Decimal.make? false 25000000000000000000000000001 28).get (by decide)

/-- Four units of it. -/
def fourFine : List Command :=
  [⟨.create ⟨⟨.ofNat 2⟩, 4, .standard, some finePrice, none, none⟩,
    (Timestamp.make? 0 25300 0).get (by decide)⟩]

/-- Their value without the digit in the last place, for which there is no room. -/
def fourRound : Decimal := (Decimal.make? false 10000000000000000000000000000 27).get (by decide)

/-- The creation is accepted all the same. -/
theorem not_exact_fourFine : ¬∀ cost ∈ ((empty ⟨.ofNat 1⟩ ⟨"BOLT"⟩).run fourFine).unitCost,
    ∀ value ∈ ((empty ⟨.ofNat 1⟩ ⟨"BOLT"⟩).run fourFine).totalValue,
      value.value = cost.value * ((empty ⟨.ofNat 1⟩ ⟨"BOLT"⟩).run fourFine).onHand := by
  intro exact
  have s1 : ((empty ⟨.ofNat 1⟩ ⟨"BOLT"⟩).run fourFine).unitCost = some finePrice := by
    decide +kernel
  have s2 : ((empty ⟨.ofNat 1⟩ ⟨"BOLT"⟩).run fourFine).totalValue = some fourRound := by
    decide +kernel
  have s3 : ((empty ⟨.ofNat 1⟩ ⟨"BOLT"⟩).run fourFine).onHand = 4 := by decide +kernel
  have s4 := exact finePrice s1 fourRound s2
  rw [s3, Decimal.value, Decimal.value, div_mul_eq_mul_div,
    div_eq_div_iff (Decimal.cast_tenTo_pos _).ne' (Decimal.cast_tenTo_pos _).ne'] at s4
  have s5 : fourRound.coefficient * tenTo finePrice.scale =
      finePrice.coefficient * 4 * tenTo fourRound.scale := by
    exact_mod_cast s4
  revert s5
  decide

end Stockroom.StockRecord
