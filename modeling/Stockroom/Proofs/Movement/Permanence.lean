import Stockroom.Proofs.Movement.History

/-! What later commands leave as it is. A reservation is never dropped; while it is held it
only ever holds less, and once it is closed it is closed for good. A record keeps its
identifiers and its version, and from its creation on its particulars. Each fitting event keeps
all this, and so does every run. -/
namespace Stockroom
set_option autoImplicit false

/-! ## Reservations -/

namespace Reservation

/-- What `x` may have become by the time it is `y`. -/
structure Keeps (x y : Reservation) : Prop where
  id : y.id = x.id
  originalQuantity : y.originalQuantity = x.originalQuantity
  notes : y.notes = x.notes
  createdAt : y.createdAt = x.createdAt
  expiresAt : y.expiresAt = x.expiresAt
  quantity : y.quantity ≤ x.quantity
  closed : x.isHeld = false → y = x

variable {x y z : Reservation} {q : Int}

theorem Keeps.refl (x : Reservation) : x.Keeps x :=
  ⟨rfl, rfl, rfl, rfl, rfl, Int.le_refl _, fun _ => rfl⟩

theorem Keeps.trans (h1 : x.Keeps y) (h2 : y.Keeps z) : x.Keeps z where
  id := h2.id.trans h1.id
  originalQuantity := h2.originalQuantity.trans h1.originalQuantity
  notes := h2.notes.trans h1.notes
  createdAt := h2.createdAt.trans h1.createdAt
  expiresAt := h2.expiresAt.trans h1.expiresAt
  quantity := Int.le_trans h2.quantity h1.quantity
  closed hx := by
    cases h1.closed hx
    exact h2.closed hx

theorem keeps_giveBack (hh : x.isHeld = true) (h0 : 0 < q) (reason : Option String)
    (t : Timestamp) : x.Keeps (x.giveBack q reason t) := by
  have held : x.isHeld ≠ false := by simp [hh]
  by_cases e : q = x.quantity
  · rw [giveBack_of_eq e]
    refine ⟨rfl, rfl, rfl, rfl, rfl, ?_, fun h => absurd h held⟩
    show 0 ≤ x.quantity
    omega
  · rw [giveBack_of_ne e]
    refine ⟨rfl, rfl, rfl, rfl, rfl, ?_, fun h => absurd h held⟩
    show x.quantity - q ≤ x.quantity
    omega

theorem keeps_consume (hh : x.isHeld = true) (h0 : 0 < x.quantity) (q : Int) (t : Timestamp) :
    x.Keeps (x.consume q t) :=
  ⟨rfl, rfl, rfl, rfl, rfl, Int.le_of_lt h0, fun h => by cases hh.symm.trans h⟩

theorem keeps_expire (hh : x.isHeld = true) (h0 : 0 < x.quantity)
    (t : Timestamp) : x.Keeps (x.expire t) :=
  ⟨rfl, rfl, rfl, rfl, rfl, Int.le_of_lt h0, fun h => by cases hh.symm.trans h⟩

end Reservation

/-! ## Records -/

namespace StockRecord

/-- What creation settles about a record. -/
structure KeepsParticulars (r s : StockRecord) : Prop where
  isCreated : s.isCreated = true
  productId : s.productId = r.productId
  thresholds : s.thresholds = r.thresholds
  unitCost : s.unitCost = r.unitCost
  location : s.location = r.location
  createdAt : s.createdAt = r.createdAt

/-- What `r` may have become by the time it is `s`. -/
structure Keeps (r s : StockRecord) : Prop where
  id : s.id = r.id
  sku : s.sku = r.sku
  version : s.version = r.version
  reservations : ∀ k x, r.reservation? k = some x → ∃ y, s.reservation? k = some y ∧ x.Keeps y
  particulars : r.isCreated = true → r.KeepsParticulars s

variable {r s t : StockRecord} {es : List Event}

theorem KeepsParticulars.refl (h : r.isCreated = true) : r.KeepsParticulars r :=
  ⟨h, rfl, rfl, rfl, rfl, rfl⟩

theorem KeepsParticulars.trans (h1 : r.KeepsParticulars s) (h2 : s.KeepsParticulars t) :
    r.KeepsParticulars t where
  isCreated := h2.isCreated
  productId := h2.productId.trans h1.productId
  thresholds := h2.thresholds.trans h1.thresholds
  unitCost := h2.unitCost.trans h1.unitCost
  location := h2.location.trans h1.location
  createdAt := h2.createdAt.trans h1.createdAt

theorem Keeps.refl (r : StockRecord) : r.Keeps r where
  id := rfl
  sku := rfl
  version := rfl
  reservations _ x hx := ⟨x, hx, .refl x⟩
  particulars := .refl

theorem Keeps.trans (h1 : r.Keeps s) (h2 : s.Keeps t) : r.Keeps t where
  id := h2.id.trans h1.id
  sku := h2.sku.trans h1.sku
  version := h2.version.trans h1.version
  reservations k x hx := by
    obtain ⟨y, hy, hxy⟩ := h1.reservations k x hx
    obtain ⟨z, hz, hyz⟩ := h2.reservations k y hy
    exact ⟨z, hz, hxy.trans hyz⟩
  particulars hc := (h1.particulars hc).trans (h2.particulars (h1.particulars hc).isCreated)

/-- Whatever becomes of the reservation under one key, the others stay. -/
theorem keeps_modify {m : KeyMap ReservationId Reservation} {id : ReservationId}
    {f : Reservation → Reservation} (h : ∀ x, m.get? id = some x → x.Keeps (f x))
    (k : ReservationId) (x : Reservation) (hx : m.get? k = some x) :
    ∃ y, (m.modify id f).get? k = some y ∧ x.Keeps y := by
  rw [reservation?_modify, hx]
  by_cases hk : k = id
  · subst hk
    exact ⟨f x, if_pos rfl, h x hx⟩
  · exact ⟨x, if_neg hk, .refl x⟩

/-- A fitting change of a reservation keeps what there is to keep of it. -/
theorem Sound.keeps_reservations {e : Event} (h : r.Sound) (hf : e.change.Fits r)
    (k : ReservationId) (x : Reservation) (hx : r.reservation? k = some x) :
    ∃ y, (r.apply e).reservation? k = some y ∧ x.Keeps y := by
  obtain ⟨c, now⟩ := e
  cases c with
  | created id sku details => exact ⟨x, hx, .refl x⟩
  | reserved id q notes expiresAt =>
    -- the key was free, so it is not `k`
    obtain ⟨-, -, -, hn⟩ := hf
    have ne : k ≠ id := by
      rintro rfl
      cases hn.symm.trans hx
    exact ⟨x, ((reservation?_insert r.reservations id k _).trans (if_neg ne)).trans hx, .refl x⟩
  | released id q reason =>
    obtain ⟨-, y, hy, hh, h0, -⟩ := hf
    refine keeps_modify (fun z hz => ?_) k x hx
    cases hy.symm.trans hz
    exact Reservation.keeps_giveBack hh h0 reason now
  | consumed id q held =>
    obtain ⟨-, y, hy, hh, -⟩ := hf
    refine keeps_modify (fun z hz => ?_) k x hx
    cases hy.symm.trans hz
    exact Reservation.keeps_consume hh (h.quantity_pos hy hh) q now
  | expired id q =>
    obtain ⟨-, y, hy, hh, -⟩ := hf
    refine keeps_modify (fun z hz => ?_) k x hx
    cases hy.symm.trans hz
    exact Reservation.keeps_expire hh (h.quantity_pos hy hh) now
  | adjusted delta reason reference =>
    refine ⟨x, ?_, .refl x⟩
    show (r.adjust delta now).reservations.get? k = some x
    rw [adjust_eq]
    exact hx
  | deactivated reason => exact ⟨x, hx, .refl x⟩

/-- Of what a creation sets nothing is set again. -/
theorem keepsParticulars_apply {e : Event} (hf : e.change.Fits r) (hc : r.isCreated = true) :
    r.KeepsParticulars (r.apply e) := by
  obtain ⟨c, now⟩ := e
  cases c with
  | created id sku details => cases hc.symm.trans hf.1
  | adjusted delta reason reference =>
    show r.KeepsParticulars { r.adjust delta now with updatedAt := some now }.derive
    rw [adjust_eq]
    exact ⟨hc, rfl, rfl, rfl, rfl, rfl⟩
  | _ => exact ⟨hc, rfl, rfl, rfl, rfl, rfl⟩

theorem Sound.keeps_apply {e : Event} (h : r.Sound) (hf : e.change.Fits r) :
    r.Keeps (r.apply e) where
  id := id_apply r e
  sku := sku_apply r e
  version := version_apply r e
  reservations := h.keeps_reservations hf
  particulars := keepsParticulars_apply hf

/-! ## Runs -/

theorem WellFormed.keeps_applyAll (h : r.WellFormed) (hf : r.FitsAll es) :
    r.Keeps (r.applyAll es) := by
  induction es generalizing r with
  | nil => exact .refl r
  | cons e es ih => exact (h.sound.keeps_apply hf.1).trans (ih (h.apply hf.1) hf.2)

theorem WellFormed.keeps_run (h : r.WellFormed) (cs : List Command) : r.Keeps (r.run cs) := by
  rw [run_eq_applyAll]
  exact h.keeps_applyAll (h.fitsAll_history cs)

/-- Between any two points of a run, what the first of them has settled is kept. -/
theorem keeps_between (id : RecordId) (sku : SkuCode) (past later : List Command) :
    ((empty id sku).run past).Keeps (((empty id sku).run past).run later) :=
  ((wellFormed_empty id sku).run past).keeps_run later

end StockRecord

end Stockroom
