import Stockroom.Movement.Decision

/-! Which commands are accepted, and with which events. Each decision comes down to a
list of conditions on the record and one list of events, so that no later proof opens the
chain of checks again. -/
namespace Stockroom.StockRecord
set_option autoImplicit false

variable {r : StockRecord} {now : Timestamp} {es : List Event}

/-! ## Checks -/

theorem ensure_bind_eq_ok_iff {α : Type} {p : Prop} [Decidable p] {e : StockError}
    {f : Unit → Except StockError α} {a : α} :
    (ensure p e >>= f) = .ok a ↔ p ∧ f () = .ok a := by
  unfold ensure
  by_cases h : p
  · simp only [h, if_true, true_and]
    rfl
  · simp only [h, if_false, false_and, iff_false]
    intro h'
    cases h'

/-- A check that is passed is as good as none. -/
theorem ensure_bind_of {α : Type} {p : Prop} [Decidable p] (h : p) (e : StockError)
    (f : Unit → Except StockError α) : (ensure p e >>= f) = f () := by
  rw [ensure, if_pos h]
  rfl

theorem ensure_bind_of_not {α : Type} {p : Prop} [Decidable p] (h : ¬p) (e : StockError)
    (f : Unit → Except StockError α) : (ensure p e >>= f) = .error e := by
  rw [ensure, if_neg h]
  rfl

theorem bind_eq_error_iff {α β : Type} {x : Except StockError α} {f : α → Except StockError β}
    {e : StockError} :
    (x >>= f) = .error e ↔ x = .error e ∨ ∃ a, x = .ok a ∧ f a = .error e := by
  cases x with
  | error d => simp [bind, Except.bind]
  | ok a => simp [bind, Except.bind]

theorem ensure_eq_ok_iff {p : Prop} [Decidable p] {e : StockError} {u : Unit} :
    ensure p e = .ok u ↔ p := by
  unfold ensure
  by_cases h : p <;> simp [h]

theorem ensure_eq_error_iff {p : Prop} [Decidable p] {d e : StockError} :
    ensure p d = .error e ↔ ¬p ∧ d = e := by
  unfold ensure
  by_cases h : p <;> simp [h]

theorem return_eq_ok_iff {α : Type} {a b : α} :
    (return a : Except StockError α) = .ok b ↔ b = a := by
  constructor
  · intro h
    cases h
    rfl
  · rintro rfl
    rfl

theorem return_ne_error {α : Type} {a : α} {e : StockError} :
    (return a : Except StockError α) ≠ .error e := nofun

theorem heldReservation_eq_ok_iff {id : ReservationId} {x : Reservation} :
    r.heldReservation id = .ok x ↔ r.reservation? id = some x ∧ x.isHeld = true := by
  unfold heldReservation
  cases h : r.reservation? id with
  | none => simp
  | some y =>
    by_cases hy : y.isHeld = true
    · simp only [hy, if_true, Except.ok.injEq, Option.some.injEq]
      constructor
      · rintro rfl
        exact ⟨rfl, hy⟩
      · exact And.left
    · simp only [hy]
      constructor
      · intro h'
        cases h'
      · rintro ⟨e, hx⟩
        cases e
        exact absurd hx hy

/-- A reservation in the way is no flaw of the request. -/
theorem heldReservation_ne_validation (id : ReservationId) (flaw : Flaw) :
    r.heldReservation id ≠ .error (.validation flaw) := by
  unfold heldReservation
  split
  · simp
  · split <;> simp

theorem ensureFresh_ne_validation (id : ReservationId) (flaw : Flaw) :
    r.ensureFresh id now ≠ .error (.validation flaw) := by
  unfold ensureFresh
  split
  · simp
  · split <;> simp

theorem ensureFresh_eq_ok_iff {id : ReservationId} :
    r.ensureFresh id now = .ok () ↔ r.reservation? id = none := by
  unfold ensureFresh
  cases h : r.reservation? id with
  | none => simp
  | some x => by_cases hx : (x.isHeld && !x.isExpiredAt now) = true <;> simp [hx]

/-! ## Acceptance, command by command -/

theorem decideCreate_eq_ok_iff {details : ItemDetails} :
    r.decideCreate details now = .ok es ↔
      r.isCreated = false ∧ 0 ≤ details.onHand ∧
        (0 ≤ details.thresholds.lowStock ∧ 0 ≤ details.thresholds.restock) ∧
        (∀ cost ∈ details.unitCost, cost.isNegative = false) ∧
        (details.unitCost.isSome = true →
          (stockValue details.unitCost details.onHand).isSome = true) ∧
        es = [⟨.created r.id r.sku details, now⟩] := by
  unfold decideCreate ensureValuable
  simp only [ensure_bind_eq_ok_iff]
  simp only [return_eq_ok_iff]

theorem decideReserve_eq_ok_iff {id : ReservationId} {q : Int} {notes : Option String}
    {expiresAt : Option Timestamp} :
    r.decideReserve id q notes expiresAt now = .ok es ↔
      0 < q ∧ r.isCreated = true ∧ r.isActive = true ∧ (∀ t ∈ expiresAt, ¬t ≤ now) ∧
        r.reservation? id = none ∧ q ≤ r.available + r.reclaimable now ∧
        es = r.expiryEvents now ++ [⟨.reserved id q notes expiresAt, now⟩] := by
  unfold decideReserve ensurePositive ensureCreated
  simp only [ensure_bind_eq_ok_iff]
  rw [← @ensureFresh_eq_ok_iff r now id]
  cases r.ensureFresh id now with
  | error e => simp [bind, Except.bind]
  | ok u =>
    show _ ∧ _ ∧ _ ∧ _ ∧ (ensure _ _ >>= _) = _ ↔ _
    rw [ensure_bind_eq_ok_iff]
    simp only [return_eq_ok_iff, true_and]

theorem decideRelease_eq_ok_iff {id : ReservationId} {q : Int} {reason : Option String} :
    r.decideRelease id q reason now = .ok es ↔
      0 < q ∧ r.isCreated = true ∧ ∃ x, r.reservation? id = some x ∧ x.isHeld = true ∧
        q ≤ x.quantity ∧ q ≤ r.reserved ∧ es = [⟨.released id q reason, now⟩] := by
  unfold decideRelease ensurePositive ensureCreated
  simp only [ensure_bind_eq_ok_iff]
  cases h : r.heldReservation id with
  | error e =>
    have none : ∀ x, ¬(r.reservation? id = some x ∧ x.isHeld = true) := by
      intro x hx
      rw [heldReservation_eq_ok_iff.2 hx] at h
      cases h
    simp only [bind, Except.bind, reduceCtorEq, and_false, false_iff]
    rintro ⟨-, -, x, h1, h2, -⟩
    exact none x ⟨h1, h2⟩
  | ok x =>
    obtain ⟨h1, h2⟩ := heldReservation_eq_ok_iff.1 h
    show _ ∧ _ ∧ (ensure _ _ >>= _) = _ ↔ _
    simp only [ensure_bind_eq_ok_iff]
    simp only [return_eq_ok_iff, h1, Option.some.injEq, exists_eq_left', h2, true_and]

theorem decideConsume_eq_ok_iff {id : ReservationId} {q : Int} :
    r.decideConsume id q now = .ok es ↔
      0 < q ∧ r.isCreated = true ∧ ∃ x, r.reservation? id = some x ∧ x.isHeld = true ∧
        q ≤ x.quantity ∧ es = [⟨.consumed id q x.quantity, now⟩] := by
  unfold decideConsume ensurePositive ensureCreated
  simp only [ensure_bind_eq_ok_iff]
  cases h : r.heldReservation id with
  | error e =>
    have none : ∀ x, ¬(r.reservation? id = some x ∧ x.isHeld = true) := by
      intro x hx
      rw [heldReservation_eq_ok_iff.2 hx] at h
      cases h
    simp only [bind, Except.bind, reduceCtorEq, and_false, false_iff]
    rintro ⟨-, -, x, h1, h2, -⟩
    exact none x ⟨h1, h2⟩
  | ok x =>
    obtain ⟨h1, h2⟩ := heldReservation_eq_ok_iff.1 h
    show _ ∧ _ ∧ (ensure _ _ >>= _) = _ ↔ _
    simp only [ensure_bind_eq_ok_iff]
    simp only [return_eq_ok_iff, h1, Option.some.injEq, exists_eq_left', h2, true_and]

theorem decideAdjust_eq_ok_iff {delta : Int} {reason reference : Option String} :
    r.decideAdjust delta reason reference now = .ok es ↔
      r.isCreated = true ∧ delta ≠ 0 ∧ fitsInt64 (r.onHand + delta) = true ∧
        (0 ≤ r.onHand + delta ∧ r.reserved ≤ r.onHand + delta) ∧
        (r.unitCost.isSome = true → (stockValue r.unitCost (r.onHand + delta)).isSome = true) ∧
        es = [⟨.adjusted delta reason reference, now⟩] := by
  unfold decideAdjust ensureCreated ensureValuable
  simp only [ensure_bind_eq_ok_iff]
  simp only [return_eq_ok_iff]

theorem decideExpire_eq_ok_iff :
    r.decideExpire now = .ok es ↔ r.isCreated = true ∧ es = r.expiryEvents now := by
  unfold decideExpire ensureCreated
  rw [ensure_bind_eq_ok_iff]
  simp only [return_eq_ok_iff]

theorem decideDeactivate_eq_ok_iff {reason : Option String} :
    r.decideDeactivate reason now = .ok es ↔
      r.isCreated = true ∧ es = if r.isActive then [⟨.deactivated reason, now⟩] else [] := by
  unfold decideDeactivate ensureCreated
  rw [ensure_bind_eq_ok_iff]
  simp only [return_eq_ok_iff]

/-! ## Execution -/

theorem execute_eq_ok_iff {c : Command} {next : StockRecord} :
    r.execute c = .ok (next, es) ↔ r.eventsFor c = .ok es ∧ next = r.applyAll es := by
  unfold execute
  cases r.eventsFor c with
  | error e => simp
  | ok fs =>
    simp only [Except.ok.injEq, Prod.mk.injEq]
    constructor
    · rintro ⟨h1, rfl⟩
      exact ⟨rfl, h1.symm⟩
    · rintro ⟨rfl, rfl⟩
      exact ⟨rfl, rfl⟩

theorem execute_eq_error_iff {c : Command} {e : StockError} :
    r.execute c = .error e ↔ r.eventsFor c = .error e := by
  unfold execute
  cases r.eventsFor c <;> simp

end Stockroom.StockRecord
