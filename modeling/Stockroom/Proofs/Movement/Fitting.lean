import Stockroom.Proofs.Record.WellFormed

/-! Changes that fit a record: the guard of each kind of change, said of the record it is
applied to. A fitting change keeps records accounted for and well-formed; what it leaves alone
is listed field by field. -/
namespace Stockroom
set_option autoImplicit false

/-- What a record must be like for a change to be applied to it. -/
def Change.Fits (r : StockRecord) : Change → Prop
  | .created id sku details =>
    r.isCreated = false ∧ id = r.id ∧ sku = r.sku ∧ 0 ≤ details.onHand ∧
      (0 ≤ details.thresholds.lowStock ∧ 0 ≤ details.thresholds.restock) ∧
      (∀ cost ∈ details.unitCost, cost.isNegative = false) ∧
      (details.unitCost.isSome = true → (stockValue details.unitCost details.onHand).isSome = true)
  | .reserved id q _ _ =>
    r.isCreated = true ∧ 0 < q ∧ q ≤ r.onHand - r.reserved ∧ r.reservation? id = none
  | .released id q _ =>
    r.isCreated = true ∧ ∃ x, r.reservation? id = some x ∧ x.isHeld = true ∧ 0 < q ∧ q ≤ x.quantity
  | .consumed id q held =>
    r.isCreated = true ∧ ∃ x, r.reservation? id = some x ∧ x.isHeld = true ∧ 0 < q ∧
      q ≤ held ∧ held = x.quantity
  | .expired id q =>
    r.isCreated = true ∧ ∃ x, r.reservation? id = some x ∧ x.isHeld = true ∧ q = x.quantity
  | .adjusted delta _ _ =>
    r.isCreated = true ∧ delta ≠ 0 ∧ fitsInt64 (r.onHand + delta) = true ∧ 0 ≤ r.onHand + delta ∧
      r.reserved ≤ r.onHand + delta ∧
      (r.unitCost.isSome = true → (stockValue r.unitCost (r.onHand + delta)).isSome = true)
  | .deactivated _ => r.isCreated = true

namespace StockRecord

variable {r : StockRecord}

/-! ## What an event changes -/

/-- A correction either way, field by field. -/
theorem adjust_eq (r : StockRecord) (delta : Int) (t : Timestamp) :
    r.adjust delta t = { r with
      onHand := r.onHand + delta
      lastRestockedAt := if 0 < delta then some t else r.lastRestockedAt
      nextRestockAt := if 0 < delta then none else r.nextRestockAt } := by
  unfold adjust
  split <;> rfl

@[simp] theorem id_apply (r : StockRecord) (e : Event) : (r.apply e).id = r.id := by
  obtain ⟨c, t⟩ := e
  cases c with
  | adjusted delta reason reference =>
    show (r.adjust delta t).id = r.id
    rw [adjust_eq]
  | _ => rfl

@[simp] theorem sku_apply (r : StockRecord) (e : Event) : (r.apply e).sku = r.sku := by
  obtain ⟨c, t⟩ := e
  cases c with
  | adjusted delta reason reference =>
    show (r.adjust delta t).sku = r.sku
    rw [adjust_eq]
  | _ => rfl

@[simp] theorem version_apply (r : StockRecord) (e : Event) : (r.apply e).version = r.version := by
  obtain ⟨c, t⟩ := e
  cases c with
  | adjusted delta reason reference =>
    show (r.adjust delta t).version = r.version
    rw [adjust_eq]
  | _ => rfl

@[simp] theorem id_applyAll (r : StockRecord) (es : List Event) : (r.applyAll es).id = r.id := by
  induction es generalizing r with
  | nil => rfl
  | cons e es ih => rw [applyAll_cons, ih, id_apply]

@[simp] theorem sku_applyAll (r : StockRecord) (es : List Event) : (r.applyAll es).sku = r.sku := by
  induction es generalizing r with
  | nil => rfl
  | cons e es ih => rw [applyAll_cons, ih, sku_apply]

theorem isCreated_apply (h : r.isCreated = true) (e : Event) : (r.apply e).isCreated = true := by
  obtain ⟨c, t⟩ := e
  cases c with
  | created id sku details => rfl
  | adjusted delta reason reference =>
    show (r.adjust delta t).isCreated = true
    rw [adjust_eq]
    exact h
  | _ => exact h

theorem isCreated_applyAll (h : r.isCreated = true) (es : List Event) :
    (r.applyAll es).isCreated = true := by
  induction es generalizing r with
  | nil => exact h
  | cons e es ih => exact ih (isCreated_apply h e)

/-- Events do not look at the version. -/
theorem apply_atVersion (r : StockRecord) (v : Nat) (e : Event) :
    (r.atVersion v).apply e = (r.apply e).atVersion v := by
  obtain ⟨c, t⟩ := e
  cases c with
  | adjusted delta reason reference =>
    show ({ (r.atVersion v).adjust delta t with updatedAt := some t } : StockRecord).derive =
      ({ r.adjust delta t with updatedAt := some t } : StockRecord).derive.atVersion v
    unfold adjust
    split <;> rfl
  | _ => rfl

theorem applyAll_atVersion (r : StockRecord) (v : Nat) (es : List Event) :
    (r.atVersion v).applyAll es = (r.applyAll es).atVersion v := by
  induction es generalizing r with
  | nil => rfl
  | cons e es ih => rw [applyAll_cons, apply_atVersion, ih, applyAll_cons]

/-! ## Reservations under a change of one of them -/

theorem reservation?_modify (m : KeyMap ReservationId Reservation) (id k : ReservationId)
    (f : Reservation → Reservation) :
    (m.modify id f).get? k = if k = id then (m.get? k).map f else m.get? k := by
  rw [KeyMap.get?_modify]
  by_cases h : k = id
  · rw [if_pos (congrArg _ h), if_pos h]
  · rw [if_neg h, if_neg fun e => h (TextKey.text_injective _ _ e)]

theorem reservation?_insert (m : KeyMap ReservationId Reservation) (id k : ReservationId)
    (x : Reservation) :
    (m.insert id x).get? k = if k = id then some x else m.get? k := by
  rw [KeyMap.get?_insert]
  by_cases h : k = id
  · rw [if_pos (congrArg _ h), if_pos h]
  · rw [if_neg h, if_neg fun e => h (TextKey.text_injective _ _ e)]

/-- What holds of every reservation and its key still does after a change of one of them,
if it holds of that one. -/
theorem entries_modify {P : Reservation → Prop} {m : KeyMap ReservationId Reservation}
    {id : ReservationId} {x : Reservation} {f : Reservation → Reservation}
    (h : ∀ k y, m.get? k = some y → y.id = k ∧ P y) (hx : m.get? id = some x)
    (hf : (f x).id = x.id ∧ P (f x)) :
    ∀ k y, (m.modify id f).get? k = some y → y.id = k ∧ P y := by
  intro k y hy
  rw [reservation?_modify] at hy
  by_cases hk : k = id
  · subst hk
    rw [if_pos rfl, hx] at hy
    cases hy
    exact ⟨hf.1.trans (h k x hx).1, hf.2⟩
  · rw [if_neg hk] at hy
    exact h k y hy

theorem entries_insert {P : Reservation → Prop} {m : KeyMap ReservationId Reservation}
    {x : Reservation} (h : ∀ k y, m.get? k = some y → y.id = k ∧ P y) (hx : P x) :
    ∀ k y, (m.insert x.id x).get? k = some y → y.id = k ∧ P y := by
  intro k y hy
  rw [reservation?_insert] at hy
  by_cases hk : k = x.id
  · rw [if_pos hk] at hy
    cases hy
    exact ⟨hk.symm, hx⟩
  · rw [if_neg hk] at hy
    exact h k y hy

/-! ## The held units follow the reserved ones -/

theorem heldTotal_reserve {id : ReservationId} (h : r.heldTotal = r.reserved)
    (hn : r.reservation? id = none) (q : Int) (notes : Option String) (expiresAt : Option Timestamp)
    (t : Timestamp) :
    (r.change t (.reserved id q notes expiresAt)).heldTotal = r.reserved + q := by
  have s1 : (r.change t (.reserved id q notes expiresAt)).heldTotal = q + r.heldTotal :=
    KeyMap.total_insert Reservation.heldQuantity (Reservation.place id q notes t expiresAt) hn
  omega

/-- A change of one hold takes as much off all of them as off that one. -/
theorem heldTotal_modify {id : ReservationId} {x : Reservation} {f : Reservation → Reservation}
    {q : Int} (h : r.heldTotal = r.reserved) (hx : r.reservation? id = some x)
    (hq : (f x).heldQuantity = x.heldQuantity - q) :
    total ((r.reservations.modify id f).values.map Reservation.heldQuantity) = r.reserved - q := by
  have s1 : total ((r.reservations.modify id f).values.map Reservation.heldQuantity) =
      r.heldTotal - x.heldQuantity + (f x).heldQuantity :=
    KeyMap.total_modify Reservation.heldQuantity f hx
  omega

theorem heldTotal_change {c : Change} {t : Timestamp} (h : r.heldTotal = r.reserved)
    (hc : r.isCreated = true) (hf : c.Fits r) :
    (r.change t c).heldTotal = (r.change t c).reserved := by
  cases c with
  | created id sku details => cases hc.symm.trans hf.1
  | reserved id q notes expiresAt =>
    obtain ⟨-, -, -, hn⟩ := hf
    exact heldTotal_reserve h hn q notes expiresAt t
  | released id q reason =>
    obtain ⟨-, x, hx, hh, -, -⟩ := hf
    refine heldTotal_modify h hx ?_
    rw [Reservation.heldQuantity_giveBack hh, Reservation.heldQuantity_of_isHeld hh]
  | consumed id q held =>
    obtain ⟨-, x, hx, hh, -, -, rfl⟩ := hf
    refine heldTotal_modify h hx ?_
    rw [Reservation.heldQuantity_of_isHeld hh]
    exact (Int.sub_self _).symm
  | expired id q =>
    obtain ⟨-, x, hx, hh, rfl⟩ := hf
    refine heldTotal_modify h hx ?_
    rw [Reservation.heldQuantity_of_isHeld hh]
    exact (Int.sub_self _).symm
  | adjusted delta reason reference =>
    show (r.adjust delta t).heldTotal = (r.adjust delta t).reserved
    rw [adjust_eq]
    exact h
  | deactivated reason => exact h

/-! ## Fitting changes keep records in order -/

namespace Accounted

variable {t : Timestamp}

theorem start {details : ItemDetails} {id : RecordId} {sku : SkuCode} (h : r.Accounted)
    (hf : (Change.created id sku details).Fits r) : (r.start details t).Accounted := by
  obtain ⟨hc, -, -, h1, -⟩ := hf
  obtain ⟨-, h2⟩ := h.uncreated hc
  exact ⟨⟨Int.le_refl 0, h1, h.covered.heldTotal_eq.trans h2⟩, h.orderly, nofun⟩

theorem reserve {id : ReservationId} {q : Int} {notes : Option String}
    {expiresAt : Option Timestamp} (h : r.Accounted)
    (hf : (Change.reserved id q notes expiresAt).Fits r) :
    (r.change t (.reserved id q notes expiresAt)).Accounted := by
  obtain ⟨hc, h0, hq, hn⟩ := hf
  obtain ⟨s1, -, s2⟩ := h.covered
  have s3 : 0 ≤ r.reserved + q := by omega
  have s4 : r.reserved + q ≤ r.onHand := by omega
  have s5 := heldTotal_reserve s2 hn q notes expiresAt t
  exact ⟨⟨s3, s4, s5⟩,
    entries_insert h.orderly (x := .place id q notes t expiresAt) (Int.le_of_lt h0), fun hu => by
      cases hc.symm.trans hu⟩

/-- A change of one hold that takes `q` units off it and off the reserved units, and `out`
of them off the stock. -/
theorem settle {id : ReservationId} {x : Reservation} (f : Reservation → Reservation) {q : Int}
    (out : Int) (h : r.Accounted) (hc : r.isCreated = true) (hx : r.reservation? id = some x)
    (hh : x.isHeld = true) (hf : (f x).id = x.id) (hq : (f x).heldQuantity = x.quantity - q)
    (h1 : out ≤ q) (h2 : q ≤ x.quantity) :
    ({ r with
      onHand := r.onHand - out
      reserved := r.reserved - q
      reservations := r.reservations.modify id f } : StockRecord).Accounted := by
  obtain ⟨-, s1, s2⟩ := h.covered
  have s3 := h.quantity_le_reserved hx hh
  have s4 : 0 ≤ r.reserved - q := by omega
  have s5 : r.reserved - q ≤ r.onHand - out := by omega
  have s6 : 0 ≤ (f x).heldQuantity := by omega
  rw [← Reservation.heldQuantity_of_isHeld hh] at hq
  exact ⟨⟨s4, s5, heldTotal_modify s2 hx hq⟩, entries_modify h.orderly hx ⟨hf, s6⟩,
    fun hu => by cases hc.symm.trans hu⟩

theorem change {c : Change} (h : r.Accounted) (hf : c.Fits r) : (r.change t c).Accounted := by
  cases c with
  | created id sku details => exact h.start hf
  | reserved id q notes expiresAt => exact h.reserve hf
  | released id q reason =>
    obtain ⟨hc, x, hx, hh, h0, hq⟩ := hf
    have s := settle (fun x => x.giveBack q reason t) 0 h hc hx hh (x.id_giveBack q reason t)
      (Reservation.heldQuantity_giveBack hh reason t) (Int.le_of_lt h0) hq
    rw [Int.sub_zero] at s
    exact s
  | consumed id q held =>
    obtain ⟨hc, x, hx, hh, h0, hq, rfl⟩ := hf
    exact settle (fun x => x.consume q t) q h hc hx hh rfl (Int.sub_self _).symm hq (Int.le_refl _)
  | expired id q =>
    obtain ⟨hc, x, hx, hh, rfl⟩ := hf
    have s := settle (fun x => x.expire t) 0 h hc hx hh rfl (Int.sub_self _).symm
        (h.quantity_nonneg hx hh)
      (Int.le_refl _)
    rw [Int.sub_zero] at s
    exact s
  | adjusted delta reason reference =>
    obtain ⟨hc, -, -, -, h1, -⟩ := hf
    obtain ⟨s1, -, s2⟩ := h.covered
    show (r.adjust delta t).Accounted
    rw [adjust_eq]
    exact ⟨⟨s1, h1, s2⟩, h.orderly, fun hu => by cases hc.symm.trans hu⟩
  | deactivated reason => exact ⟨⟨h.covered.1, h.covered.2, h.covered.3⟩, h.orderly, h.uncreated⟩

end Accounted

/-- One step: a fitting event keeps a record in order, and brings it up to date. -/
theorem Accounted.apply {e : Event} (h : r.Accounted) (hf : e.change.Fits r) :
    (r.apply e).Admitted := by
  obtain ⟨⟨s1, s2, s3⟩, s4, s5⟩ := h.change (t := e.occurredAt) hf
  exact ⟨isConsistent_iff_covered.2 ⟨⟨s1, s2, s3⟩, upToDate_derive _⟩, s4, s5⟩

namespace Sound

variable {t : Timestamp}

theorem entries_change {c : Change} (h : r.Sound) (hf : c.Fits r) :
    ∀ k x, (r.change t c).reservation? k = some x → x.id = k ∧ x.WellFormed := by
  cases c with
  | created id sku details => exact h.entries
  | reserved id q notes expiresAt =>
    exact entries_insert h.entries (Reservation.wellFormed_place id notes t expiresAt hf.2.1)
  | released id q reason =>
    obtain ⟨-, x, hx, hh, h0, hq⟩ := hf
    exact entries_modify h.entries hx
      ⟨x.id_giveBack q reason t, (h.entries id x hx).2.giveBack hh h0 hq reason t⟩
  | consumed id q held =>
    obtain ⟨-, x, hx, hh, h0, hq, rfl⟩ := hf
    exact entries_modify h.entries hx ⟨rfl, (h.entries id x hx).2.consume hh h0 hq t⟩
  | expired id q =>
    obtain ⟨-, x, hx, hh, rfl⟩ := hf
    exact entries_modify h.entries hx ⟨rfl, (h.entries id x hx).2.expire hh t⟩
  | adjusted delta reason reference =>
    show ∀ k x, (r.adjust delta t).reservation? k = some x → x.id = k ∧ x.WellFormed
    rw [adjust_eq]
    exact h.entries
  | deactivated reason => exact h.entries

theorem created_change {c : Change} (h : r.Sound) (hf : c.Fits r) :
    (r.change t c).isCreated = true →
    (0 ≤ (r.change t c).thresholds.lowStock ∧ 0 ≤ (r.change t c).thresholds.restock) ∧
      ∀ cost ∈ (r.change t c).unitCost, cost.isNegative = false := by
  cases c with
  | created id sku details =>
    obtain ⟨-, -, -, -, h2, h3, -⟩ := hf
    exact fun _ => ⟨h2, h3⟩
  | adjusted delta reason reference =>
    rw [StockRecord.change, adjust_eq]
    exact h.created
  | _ => exact h.created

theorem change {c : Change} (h : r.Sound) (hf : c.Fits r) : (r.change t c).Sound := by
  obtain ⟨⟨s1, s2, s3⟩, -, s4⟩ := h.accounted.change (t := t) hf
  exact ⟨s1, s2, s3, h.entries_change hf, h.created_change hf, s4⟩

end Sound

/-- One step: a fitting event keeps a record well-formed. -/
theorem WellFormed.apply {e : Event} (h : r.WellFormed) (hf : e.change.Fits r) :
    (r.apply e).WellFormed := by
  have s : (r.change e.occurredAt e.change).Sound := h.sound.change hf
  exact Sound.derive ⟨s.reserved_nonneg, s.reserved_le, s.heldTotal_eq,
    s.entries, s.created, s.uncreated⟩

/-! ## Lists of events -/

/-- Each event fits the record that the events before it have led to. -/
def FitsAll (r : StockRecord) : List Event → Prop
  | [] => True
  | e :: es => e.change.Fits r ∧ (r.apply e).FitsAll es

theorem fitsAll_append (r : StockRecord) (es fs : List Event) :
    r.FitsAll (es ++ fs) ↔ r.FitsAll es ∧ (r.applyAll es).FitsAll fs := by
  induction es generalizing r with
  | nil => simp only [List.nil_append, FitsAll, applyAll_nil, true_and]
  | cons e es ih => rw [List.cons_append, FitsAll, ih, FitsAll, applyAll_cons, and_assoc]

theorem Admitted.applyAll {es : List Event} (h : r.Admitted) (hf : r.FitsAll es) :
    (r.applyAll es).Admitted := by
  induction es generalizing r with
  | nil => exact h
  | cons e es ih => exact ih (h.accounted.apply hf.1) hf.2

theorem WellFormed.applyAll {es : List Event} (h : r.WellFormed) (hf : r.FitsAll es) :
    (r.applyAll es).WellFormed := by
  induction es generalizing r with
  | nil => exact h
  | cons e es ih => exact ih (h.apply hf.1) hf.2

end StockRecord

end Stockroom
