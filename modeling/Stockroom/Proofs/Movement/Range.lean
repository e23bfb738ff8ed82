import Stockroom.Proofs.Document.Event
import Stockroom.Proofs.Movement.Reachability

/-! Numbers that documents can carry. A record in order whose units on hand fit into a
word of 64 bits bounds the number of every change that fits it; only what an item starts
with comes from outside. -/
namespace Stockroom
set_option autoImplicit false

structure ItemDetails.InRange (details : ItemDetails) : Prop where
  onHand : fitsInt64 details.onHand = true
  lowStock : fitsInt64 details.thresholds.lowStock = true
  restock : fitsInt64 details.thresholds.restock = true

namespace StockRecord

variable {r : StockRecord} {es : List Event}

theorem Sound.isWritable {c : Change} (h : r.Sound) (hb : fitsInt64 r.onHand = true) (hf : c.Fits r)
    (hc : ∀ id sku details, c = .created id sku details → details.InRange) : c.IsWritable := by
  have s1 := h.reserved_nonneg
  have s2 := h.reserved_le
  cases c with
  | created id sku details =>
    obtain ⟨-, -, -, -, -, h5, -⟩ := hf
    obtain ⟨h1, h2, h3⟩ := hc id sku details rfl
    refine ⟨h1, h2, h3, fun cost hm hn => ?_⟩
    cases (h5 cost hm).symm.trans hn
  | reserved id q notes expiresAt =>
    obtain ⟨-, h0, hq, -⟩ := hf
    simp only [Change.IsWritable, fitsInt64_iff] at hb ⊢
    omega
  | released id q reason =>
    obtain ⟨-, x, hx, hh, h0, hq⟩ := hf
    have s3 := h.quantity_le_reserved hx hh
    simp only [Change.IsWritable, fitsInt64_iff] at hb ⊢
    omega
  | consumed id q held =>
    obtain ⟨-, x, hx, hh, h0, hq, rfl⟩ := hf
    have s3 := h.quantity_le_reserved hx hh
    simp only [Change.IsWritable, fitsInt64_iff] at hb ⊢
    omega
  | expired id q =>
    obtain ⟨-, x, hx, hh, rfl⟩ := hf
    have s3 := h.quantity_le_reserved hx hh
    have s4 := h.quantity_pos hx hh
    simp only [Change.IsWritable, fitsInt64_iff] at hb ⊢
    omega
  | adjusted delta reason reference =>
    obtain ⟨-, -, hq, h0, -, -⟩ := hf
    simp only [Change.IsWritable, fitsInt64_iff] at hb hq ⊢
    omega
  | deactivated reason => trivial

theorem Accounted.onHand_apply {e : Event} (h : r.Accounted) (hb : fitsInt64 r.onHand = true)
    (hf : e.change.Fits r)
    (hc : ∀ id sku details, e.change = .created id sku details → details.InRange) :
    fitsInt64 (r.apply e).onHand = true := by
  obtain ⟨c, t⟩ := e
  cases c with
  | created id sku details => exact (hc id sku details rfl).onHand
  | consumed id q held =>
    obtain ⟨-, x, hx, hh, h0, hq, rfl⟩ := hf
    have s1 := h.quantity_le_reserved hx hh
    have s2 := h.covered.reserved_le
    show fitsInt64 (r.onHand - q) = true
    rw [fitsInt64_iff] at hb ⊢
    omega
  | adjusted delta reason reference =>
    obtain ⟨-, -, hq, -⟩ := hf
    show fitsInt64 (r.adjust delta t).onHand = true
    rw [adjust_eq]
    exact hq
  | _ => exact hb

theorem Admitted.onHand_applyAll (h : r.Admitted) (hb : fitsInt64 r.onHand = true)
    (hf : r.FitsAll es)
    (hc : ∀ e ∈ es, ∀ id sku details, e.change = .created id sku details → details.InRange) :
    fitsInt64 (r.applyAll es).onHand = true := by
  induction es generalizing r with
  | nil => exact hb
  | cons e es ih =>
    have s1 := h.accounted.onHand_apply hb hf.1 (hc e List.mem_cons_self)
    exact ih (h.accounted.apply hf.1) s1 hf.2 fun e he => hc e (List.mem_cons_of_mem _ he)

theorem WellFormed.isWritable_fitsAll (h : r.WellFormed) (hb : fitsInt64 r.onHand = true)
    (hf : r.FitsAll es)
    (hc : ∀ e ∈ es, ∀ id sku details, e.change = .created id sku details → details.InRange) :
    ∀ e ∈ es, e.change.IsWritable := by
  induction es generalizing r with
  | nil => exact List.forall_mem_nil _
  | cons e es ih =>
    have hc1 := hc e List.mem_cons_self
    have s1 := h.sound.isWritable hb hf.1 hc1
    have s2 := h.sound.accounted.onHand_apply hb hf.1 hc1
    have s3 := ih (h.apply hf.1) s2 hf.2 fun e he => hc e (List.mem_cons_of_mem _ he)
    exact List.forall_mem_cons.2 ⟨s1, s3⟩

/-- The particulars in an event of creation are those of the command. -/
theorem action_of_created_mem {c : Command} {e : Event} {id : RecordId} {sku : SkuCode}
    {details : ItemDetails} (hd : r.eventsFor c = .ok es) (he : e ∈ es)
    (hc : e.change = .created id sku details) : c.action = .create details := by
  obtain ⟨a, now⟩ := c
  have lapses (he : e ∈ r.expiryEvents now) : False := by
    obtain ⟨x, -, rfl⟩ := List.mem_map.1 (expiryEvents_eq r now ▸ he)
    cases hc
  cases a with
  | create details' =>
    obtain ⟨-, -, -, -, -, rfl⟩ := decideCreate_eq_ok_iff.1 hd
    cases List.mem_singleton.1 he
    cases hc
    rfl
  | reserve k q notes expiresAt =>
    obtain ⟨-, -, -, -, -, -, rfl⟩ := decideReserve_eq_ok_iff.1 hd
    rcases List.mem_append.1 he with he | he
    · exact (lapses he).elim
    · cases List.mem_singleton.1 he
      cases hc
  | release k q reason =>
    obtain ⟨-, -, x, -, -, -, -, rfl⟩ := decideRelease_eq_ok_iff.1 hd
    cases List.mem_singleton.1 he
    cases hc
  | consume k q =>
    obtain ⟨-, -, x, -, -, -, rfl⟩ := decideConsume_eq_ok_iff.1 hd
    cases List.mem_singleton.1 he
    cases hc
  | adjust delta reason reference =>
    obtain ⟨-, -, -, -, -, rfl⟩ := decideAdjust_eq_ok_iff.1 hd
    cases List.mem_singleton.1 he
    cases hc
  | expire =>
    obtain ⟨-, rfl⟩ := decideExpire_eq_ok_iff.1 hd
    exact (lapses he).elim
  | deactivate reason =>
    obtain ⟨-, rfl⟩ := decideDeactivate_eq_ok_iff.1 hd
    split at he
    · cases List.mem_singleton.1 he
      cases hc
    · cases he

theorem Admitted.onHand_execute {c : Command} {next : StockRecord} (h : r.Admitted)
    (hb : fitsInt64 r.onHand = true) (he : r.execute c = .ok (next, es))
    (hc : ∀ details, c.action = .create details → details.InRange) :
    fitsInt64 next.onHand = true := by
  obtain ⟨hd, rfl⟩ := execute_eq_ok_iff.1 he
  exact h.onHand_applyAll hb (h.fitsAll hd) fun e he id sku details hk =>
    hc details (action_of_created_mem hd he hk)

theorem WellFormed.isWritable_execute {c : Command} {next : StockRecord} (h : r.WellFormed)
    (hb : fitsInt64 r.onHand = true) (he : r.execute c = .ok (next, es))
    (hc : ∀ details, c.action = .create details → details.InRange) :
    (∀ e ∈ es, e.change.IsWritable) ∧ fitsInt64 next.onHand = true := by
  refine ⟨?_, h.admitted.onHand_execute hb he hc⟩
  obtain ⟨hd, rfl⟩ := execute_eq_ok_iff.1 he
  exact h.isWritable_fitsAll hb (h.fitsAll hd) fun e he id sku details hk =>
    hc details (action_of_created_mem hd he hk)

end StockRecord

end Stockroom
