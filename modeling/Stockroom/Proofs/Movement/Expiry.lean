import Stockroom.Proofs.Movement.Decision
import Stockroom.Proofs.Movement.Fitting

/-! Sweeping stale holds. The events are taken from one snapshot of the record and applied one after
the other; as no two of them are about one reservation, each still fits when its turn comes. -/
namespace Stockroom
set_option autoImplicit false

/-- Held, though its expiry has come. -/
def Reservation.IsOverdue (x : Reservation) (now : Timestamp) : Prop :=
  x.state = .held ∧ ∃ t ∈ x.expiresAt, t ≤ now

instance (x : Reservation) (now : Timestamp) : Decidable (x.IsOverdue now) :=
  inferInstanceAs (Decidable (_ ∧ _))

theorem Reservation.isStaleAt_iff {x : Reservation} {now : Timestamp} :
    x.isStaleAt now = true ↔ x.IsOverdue now := by
  unfold IsOverdue isStaleAt isExpiredAt
  rw [Bool.and_eq_true, isHeld_iff]
  cases x.expiresAt with
  | none => simp
  | some t => simp

/-- What is past its expiry stays so. -/
theorem Reservation.isStaleAt_of_le {x : Reservation} {t now : Timestamp} (le : t ≤ now)
    (h : x.isStaleAt t = true) : x.isStaleAt now = true := by
  obtain ⟨held, due, he, hd⟩ := isStaleAt_iff.1 h
  exact isStaleAt_iff.2 ⟨held, due, he, Timestamp.le_trans hd le⟩

namespace StockRecord

def overdue (r : StockRecord) (now : Timestamp) : List Reservation :=
  r.reservations.values.filter fun x => x.IsOverdue now

variable {r : StockRecord} {now : Timestamp}

theorem overdue_eq (r : StockRecord) (now : Timestamp) : r.overdue now = r.staleHolds now := by
  refine List.filter_congr ?_
  intro x hx
  rw [Bool.eq_iff_iff, decide_eq_true_iff, Reservation.isStaleAt_iff]

/-- Held reservations of a record, no two of them under one key. -/
structure Lapsing (r : StockRecord) (xs : List Reservation) : Prop where
  distinct : xs.Pairwise fun x y => x.id ≠ y.id
  held : ∀ x ∈ xs, r.reservation? x.id = some x ∧ x.isHeld = true

theorem mem_staleHolds_iff {x : Reservation} :
    x ∈ r.staleHolds now ↔ (∃ k, r.reservation? k = some x) ∧ x.isStaleAt now = true := by
  unfold staleHolds reservation?
  rw [List.mem_filter, KeyMap.mem_values_iff]

theorem isHeld_of_mem_staleHolds {x : Reservation}
    (h : x ∈ r.staleHolds now) : x.isHeld = true := by
  have hs := (mem_staleHolds_iff.1 h).2
  rw [Reservation.isStaleAt, Bool.and_eq_true] at hs
  exact hs.1

theorem Orderly.stale_nonneg (h : r.Orderly) :
    ∀ q ∈ (r.staleHolds now).map Reservation.quantity, 0 ≤ q := by
  intro q hq
  obtain ⟨x, hx, rfl⟩ := List.mem_map.1 hq
  rw [← Reservation.heldQuantity_of_isHeld (isHeld_of_mem_staleHolds hx)]
  exact h.heldQuantity_nonneg (List.mem_filter.1 hx).1

/-- What a sweep would give back is part of what is held. -/
theorem Orderly.reclaimable_bounds (h : r.Orderly) (now : Timestamp) :
    0 ≤ r.reclaimable now ∧ r.reclaimable now ≤ r.heldTotal := by
  refine ⟨total_nonneg h.stale_nonneg, ?_⟩
  have s1 : (r.staleHolds now).map Reservation.quantity =
      (r.staleHolds now).map Reservation.heldQuantity :=
    List.map_congr_left fun x hx =>
      (Reservation.heldQuantity_of_isHeld (isHeld_of_mem_staleHolds hx)).symm
  rw [reclaimable, s1]
  exact total_filter_le _ fun x hx => h.heldQuantity_nonneg hx

/-- Reservations filed under their own keys stand in the order of their identifiers. -/
theorem Keyed.ascending_values (h : r.Keyed) :
    r.reservations.values.Pairwise fun x y => x.id.text < y.id.text := by
  refine List.pairwise_map.2 (r.reservations.ascending.imp_of_mem fun {a b} ha hb lt => ?_)
  rw [h a.1 a.2 (KeyMap.get?_eq_some_iff.2 ha), h b.1 b.2 (KeyMap.get?_eq_some_iff.2 hb)]
  exact lt

theorem Keyed.distinct_values (h : r.Keyed) :
    r.reservations.values.Pairwise fun x y => x.id ≠ y.id := by
  refine h.ascending_values.imp fun {x y} lt e => ?_
  rw [e] at lt
  exact String.lt_irrefl _ lt

/-- Any choice among the holds of a record. -/
theorem Keyed.lapsing_filter (h : r.Keyed) {p : Reservation → Bool}
    (hp : ∀ x, p x = true → x.isHeld = true) :
    r.Lapsing (r.reservations.values.filter p) where
  distinct := h.distinct_values.filter _
  held x hx := by
    obtain ⟨hm, hx⟩ := List.mem_filter.1 hx
    obtain ⟨k, hk⟩ := KeyMap.mem_values_iff.1 hm
    rw [h k x hk]
    exact ⟨hk, hp x hx⟩

theorem Lapsing.perm {xs ys : List Reservation} (h : r.Lapsing ys)
    (hp : xs.Perm ys) : r.Lapsing xs where
  distinct := (hp.pairwise_iff fun e => e.symm).2 h.distinct
  held x hx := h.held x (hp.mem_iff.1 hx)

theorem Keyed.lapsing_staleHolds (h : r.Keyed) (now : Timestamp) : r.Lapsing (r.staleHolds now) :=
  h.lapsing_filter fun _ hx => (Bool.and_eq_true_iff.1 hx).1

/-! ## One lapse -/

def lapse (now : Timestamp) (x : Reservation) : Event := ⟨.expired x.id x.quantity, now⟩

theorem expiryEvents_eq (r : StockRecord) (now : Timestamp) :
    r.expiryEvents now = (r.staleHolds now).map (lapse now) := rfl

theorem reservation?_apply_lapse (x : Reservation) (k : ReservationId) :
    (r.apply (lapse now x)).reservation? k =
      if k = x.id then (r.reservation? k).map fun y => y.expire now else r.reservation? k :=
  reservation?_modify r.reservations x.id k _

/-- An event about one of the reservations leaves the others as they were. -/
theorem Lapsing.tail_of_apply {e : Event} {x : Reservation} {xs : List Reservation}
    (h : r.Lapsing (x :: xs)) (he : ∀ k, k ≠ x.id → (r.apply e).reservation? k = r.reservation? k) :
    (r.apply e).Lapsing xs where
  distinct := (List.pairwise_cons.1 h.distinct).2
  held y hy := by
    have ne : y.id ≠ x.id := fun e => (List.pairwise_cons.1 h.distinct).1 y hy e.symm
    rw [he y.id ne]
    exact h.held y (List.mem_cons_of_mem x hy)

theorem Lapsing.tail {x : Reservation} {xs : List Reservation} (h : r.Lapsing (x :: xs)) :
    (r.apply (lapse now x)).Lapsing xs :=
  h.tail_of_apply fun k hk => by rw [reservation?_apply_lapse, if_neg hk]

/-! ## All of them -/

variable {xs : List Reservation}

theorem Lapsing.fitsAll (h : r.Lapsing xs) (hc : r.isCreated = true) (now : Timestamp) :
    r.FitsAll (xs.map (lapse now)) := by
  induction xs generalizing r with
  | nil => trivial
  | cons x xs ih =>
    obtain ⟨hx, hh⟩ := h.held x List.mem_cons_self
    exact ⟨⟨hc, x, hx, hh, rfl⟩, ih h.tail hc⟩

/-- What one lapse leaves alone, all of them do. -/
theorem lapses_frame {α : Type} (f : StockRecord → α) (h : ∀ r x, f (r.apply (lapse now x)) = f r)
    (r : StockRecord) (xs : List Reservation) : f (r.applyAll (xs.map (lapse now))) = f r := by
  induction xs generalizing r with
  | nil => rfl
  | cons x xs ih => exact (ih (r.apply (lapse now x))).trans (h r x)

theorem onHand_lapses (r : StockRecord) (xs : List Reservation) (now : Timestamp) :
    (r.applyAll (xs.map (lapse now))).onHand = r.onHand :=
  lapses_frame onHand (fun _ _ => rfl) r xs

theorem isCreated_lapses (r : StockRecord) (xs : List Reservation) (now : Timestamp) :
    (r.applyAll (xs.map (lapse now))).isCreated = r.isCreated :=
  lapses_frame isCreated (fun _ _ => rfl) r xs

theorem isActive_lapses (r : StockRecord) (xs : List Reservation) (now : Timestamp) :
    (r.applyAll (xs.map (lapse now))).isActive = r.isActive :=
  lapses_frame isActive (fun _ _ => rfl) r xs

theorem reserved_lapses (r : StockRecord) (xs : List Reservation) (now : Timestamp) :
    (r.applyAll (xs.map (lapse now))).reserved =
      r.reserved - total (xs.map Reservation.quantity) := by
  induction xs generalizing r with
  | nil => exact (Int.sub_zero _).symm
  | cons x xs ih =>
    refine (ih (r.apply (lapse now x))).trans ?_
    rw [List.map_cons, total_cons]
    show r.reserved - x.quantity - _ = _
    omega

/-- Reservations that are listed have expired, no matter how often they are listed; all
others stay as they are. -/
theorem reservation?_lapses (r : StockRecord) (xs : List Reservation) (now : Timestamp)
    (k : ReservationId) :
    (r.applyAll (xs.map (lapse now))).reservation? k =
      if k ∈ xs.map Reservation.id then (r.reservation? k).map fun y => y.expire now
        else r.reservation? k := by
  induction xs generalizing r with
  | nil => rfl
  | cons x xs ih =>
    rw [List.map_cons, applyAll_cons, ih, reservation?_apply_lapse, List.map_cons]
    by_cases hx : k = x.id
    · have both : (Reservation.expire · now) ∘ (Reservation.expire · now) =
          (Reservation.expire · now) := rfl
      rw [if_pos hx, if_pos (List.mem_cons.2 (Or.inl hx)), Option.map_map, both, ite_self]
    · have listed : k ∈ x.id :: xs.map Reservation.id ↔ k ∈ xs.map Reservation.id := by simp [hx]
      rw [if_neg hx]
      simp only [listed]

theorem reservation?_lapses_eq_none {k : ReservationId} (h : r.reservation? k = none)
    (xs : List Reservation) (now : Timestamp) :
    (r.applyAll (xs.map (lapse now))).reservation? k = none := by
  rw [reservation?_lapses, h]
  exact ite_self none

end StockRecord

end Stockroom
