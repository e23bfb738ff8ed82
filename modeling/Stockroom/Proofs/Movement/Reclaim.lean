import Stockroom.Proofs.Movement.Reachability

/-! Reclaiming on the way. A reservation counts the units of the holds past their expiry as
available and sweeps them in the same stroke. Had they been swept before, it would have come to the
same, but for the state that is reported of an expired hold under the key asked for. -/
namespace Stockroom.StockRecord
set_option autoImplicit false

/-- The record once all holds past their expiry are swept. -/
def swept (r : StockRecord) (now : Timestamp) : StockRecord := r.applyAll (r.expiryEvents now)

/-- How a request fares on a record, and how it fares on the same record after a sweep: both ways it
is accepted, with answers that `R` compares, or it is refused for one reason, or the key it asks for
belongs to an expired hold. -/
inductive SameFate {α : Type} (r : StockRecord) (now : Timestamp) (R : α → α → Prop) :
    Except StockError α → Except StockError α → Prop where
  | accepted (a b : α) (h : R a b) : SameFate r now R (.ok a) (.ok b)
  | refused (e : StockError)
    (h : ∀ k s x, e = .invalidReservationState k s → r.reservation? k = some x →
      x.isStaleAt now = false) :
    SameFate r now R (.error e) (.error e)
  | lapsed (k : ReservationId) (x : Reservation) (hx : r.reservation? k = some x)
    (hs : x.isStaleAt now = true) :
    SameFate r now R (.error (.invalidReservationState k (.inState .held)))
      (.error (.invalidReservationState k (.inState .released)))

/-- The same record, by the events of one way in front of those of the other. -/
def Joins (es : List Event) (a b : StockRecord × List Event) : Prop := a.1 = b.1 ∧ a.2 = es ++ b.2

variable {r : StockRecord} {now : Timestamp}

/-! ## After a sweep -/

theorem execute_expire (h : r.isCreated = true) (now : Timestamp) :
    r.execute ⟨.expire, now⟩ = .ok (r.swept now, r.expiryEvents now) :=
  execute_eq_ok_iff.2 ⟨decideExpire_eq_ok_iff.2 ⟨h, rfl⟩, rfl⟩

theorem isStaleAt_expire (x : Reservation) (t now : Timestamp) :
    (x.expire t).isStaleAt now = false := rfl

theorem Sound.mem_ids_staleHolds_iff {k : ReservationId} {x : Reservation} (h : r.Sound)
    (hx : r.reservation? k = some x) (now : Timestamp) :
    k ∈ (r.staleHolds now).map Reservation.id ↔ x.isStaleAt now = true := by
  rw [List.mem_map]
  constructor
  · rintro ⟨y, hy, hk⟩
    obtain ⟨⟨k', hk'⟩, hs⟩ := mem_staleHolds_iff.1 hy
    have hi : y.id = k' := (h.entries k' y hk').1
    rw [← hi, hk, hx] at hk'
    cases hk'
    exact hs
  · intro hs
    exact ⟨x, mem_staleHolds_iff.2 ⟨⟨k, hx⟩, hs⟩, (h.entries k x hx).1⟩

theorem Sound.reservation?_swept (h : r.Sound) (k : ReservationId) :
    (r.swept now).reservation? k = (r.reservation? k).map fun x =>
      if x.isStaleAt now then x.expire now else x := by
  rw [swept, expiryEvents_eq, reservation?_lapses]
  cases hx : r.reservation? k with
  | none => exact ite_self none
  | some x =>
    have hm := h.mem_ids_staleHolds_iff hx now
    simp only [hm, Option.map_some]
    split <;> rfl

/-- A sweep leaves nothing to sweep, neither at its own moment nor at any before. -/
theorem Sound.staleHolds_swept_of_le {t : Timestamp} (h : r.Sound) (le : t ≤ now) :
    (r.swept now).staleHolds t = [] := by
  refine List.eq_nil_iff_forall_not_mem.2 fun y hy => ?_
  obtain ⟨⟨k, hk⟩, hs⟩ := mem_staleHolds_iff.1 hy
  rw [h.reservation?_swept] at hk
  obtain ⟨x, -, rfl⟩ := Option.map_eq_some_iff.1 hk
  by_cases hx : x.isStaleAt now = true
  · rw [if_pos hx, isStaleAt_expire] at hs
    cases hs
  · rw [if_neg hx] at hs
    exact hx (Reservation.isStaleAt_of_le le hs)

theorem Sound.staleHolds_swept (h : r.Sound) : (r.swept now).staleHolds now = [] :=
  h.staleHolds_swept_of_le (Timestamp.le_refl now)

theorem Sound.expiryEvents_swept (h : r.Sound) : (r.swept now).expiryEvents now = [] := by
  rw [expiryEvents_eq, h.staleHolds_swept, List.map_nil]

theorem Sound.reclaimable_swept (h : r.Sound) : (r.swept now).reclaimable now = 0 := by
  rw [reclaimable, h.staleHolds_swept]
  rfl

theorem WellFormed.available_swept (h : r.WellFormed) (hc : r.isCreated = true) :
    (r.swept now).available = r.available + r.reclaimable now := by
  have hs : (r.swept now).WellFormed :=
    h.applyAll ((h.sound.orderly.keyed.lapsing_staleHolds now).fitsAll hc now)
  have s1 := h.available_eq
  have s2 := hs.available_eq
  have s3 : (r.swept now).onHand = r.onHand := onHand_lapses r (r.staleHolds now) now
  have s4 : (r.swept now).reserved = r.reserved - r.reclaimable now :=
    reserved_lapses r (r.staleHolds now) now
  omega

/-! ## Deciding before and after -/

theorem SameFate.bind {α β : Type} {R : α → α → Prop} {S : β → β → Prop} {a b : Except StockError α}
    {f g : α → Except StockError β} (h : SameFate r now R a b)
    (hf : ∀ u v, R u v → SameFate r now S (f u) (g v)) : SameFate r now S (a >>= f) (b >>= g) := by
  cases h with
  | accepted u v h => exact hf u v h
  | refused e h => exact .refused e h
  | lapsed k x hx hs => exact .lapsed k x hx hs

/-- A check of what a sweep leaves alone. -/
theorem sameFate_ensure {p : Prop} [Decidable p] {e : StockError}
    (he : ∀ k s, e ≠ .invalidReservationState k s) :
    SameFate r now Eq (ensure p e) (ensure p e) := by
  by_cases hp : p
  · rw [ensure, if_pos hp]
    exact .accepted _ _ rfl
  · rw [ensure, if_neg hp]
    exact .refused e fun k s x hk => absurd hk (he k s)

theorem Sound.sameFate_ensureFresh (h : r.Sound) (id : ReservationId) (now : Timestamp) :
    SameFate r now Eq (r.ensureFresh id now) ((r.swept now).ensureFresh id now) := by
  unfold ensureFresh
  rw [h.reservation?_swept]
  cases hx : r.reservation? id with
  | none => exact .accepted _ _ rfl
  | some x =>
    rw [Option.map_some]
    by_cases hs : x.isStaleAt now = true
    · obtain ⟨hh, he⟩ : x.isHeld = true ∧ x.isExpiredAt now = true := by
        rwa [Reservation.isStaleAt, Bool.and_eq_true] at hs
      have hst : x.state = .held := (Reservation.isHeld_iff x).1 hh
      simp only [if_pos hs, hh, he, hst]
      exact .lapsed id x hx hs
    · simp only [if_neg hs]
      cases x.isHeld && !x.isExpiredAt now with
      | true => exact .refused _ (by simp)
      | false =>
        refine .refused _ fun k s y hk hy => ?_
        cases hk
        cases hx.symm.trans hy
        exact Bool.eq_false_iff.2 hs

theorem WellFormed.sameFate_decideReserve (h : r.WellFormed) (hc : r.isCreated = true)
    (id : ReservationId) (q : Int) (notes : Option String) (expiresAt : Option Timestamp)
    (now : Timestamp) :
    SameFate r now (fun es fs => es = r.expiryEvents now ++ fs)
      (r.decideReserve id q notes expiresAt now)
      ((r.swept now).decideReserve id q notes expiresAt now) := by
  have hsku : (r.swept now).sku = r.sku := sku_applyAll r _
  have hcreated : (r.swept now).isCreated = r.isCreated := isCreated_lapses r (r.staleHolds now) now
  have hactive : (r.swept now).isActive = r.isActive := isActive_lapses r (r.staleHolds now) now
  unfold decideReserve ensurePositive ensureCreated
  rw [hsku, hcreated, hactive, h.available_swept hc, h.sound.reclaimable_swept,
    h.sound.expiryEvents_swept, Int.add_zero]
  -- of the six checks only the one for the key can tell the two ways apart
  refine (sameFate_ensure (by simp)).bind fun _ _ _ => ?_
  refine (sameFate_ensure (by simp)).bind fun _ _ _ => ?_
  refine (sameFate_ensure (by simp)).bind fun _ _ _ => ?_
  refine (sameFate_ensure (by simp)).bind fun _ _ _ => ?_
  refine (h.sound.sameFate_ensureFresh id now).bind fun _ _ _ => ?_
  exact (sameFate_ensure (by simp)).bind fun _ _ _ => .accepted _ _ rfl

/-! ## Carrying out before and after -/

theorem sameFate_execute {c : Command}
    (h : SameFate r now (fun es fs => es = r.expiryEvents now ++ fs) (r.eventsFor c)
      ((r.swept now).eventsFor c)) :
    SameFate r now (Joins (r.expiryEvents now)) (r.execute c) ((r.swept now).execute c) := by
  unfold execute
  generalize r.eventsFor c = before at h
  generalize (r.swept now).eventsFor c = after at h
  cases h with
  | accepted es fs h =>
    subst h
    exact .accepted _ _ ⟨applyAll_append r _ fs, rfl⟩
  | refused e h => exact .refused e h
  | lapsed k x hx hs => exact .lapsed k x hx hs

/-- A reservation on the record of a created unit comes to the same as a sweep with
the reservation after it. -/
theorem sameFate_reserve {recordId : RecordId} {sku : SkuCode} {cs : List Command}
    (hc : ((empty recordId sku).run cs).isCreated = true) (id : ReservationId) (q : Int)
    (notes : Option String) (expiresAt : Option Timestamp) (now : Timestamp) :
    let r := (empty recordId sku).run cs
    ∃ after es, r.execute ⟨.expire, now⟩ = .ok (after, es) ∧
      SameFate r now (Joins es) (r.execute ⟨.reserve id q notes expiresAt, now⟩)
        (after.execute ⟨.reserve id q notes expiresAt, now⟩) := by
  intro r
  have hw : r.WellFormed := (wellFormed_empty recordId sku).run cs
  have he : r.execute ⟨.expire, now⟩ = .ok (r.swept now, r.expiryEvents now) :=
    execute_eq_ok_iff.2 ⟨decideExpire_eq_ok_iff.2 ⟨hc, rfl⟩, rfl⟩
  exact ⟨r.swept now, r.expiryEvents now, he,
    sameFate_execute (hw.sameFate_decideReserve hc id q notes expiresAt now)⟩

def eight : Timestamp := (Timestamp.make? 0 28800 0).get (by decide)

def nine : Timestamp := (Timestamp.make? 0 32400 0).get (by decide)

def ten : Timestamp := (Timestamp.make? 0 36000 0).get (by decide)

/-- Five units, three of them held from eight to nine. -/
def heldOver : List Command :=
  [⟨.create ⟨⟨.ofNat 1⟩, 5, .standard, none, none, none⟩, eight⟩,
    ⟨.reserve ⟨"first"⟩ 3 none (some nine), eight⟩]

theorem sameFate_reserve_heldOver :
    let r := (empty ⟨.ofNat 1⟩ ⟨"BOLT"⟩).run heldOver
    let c : Command := ⟨.reserve ⟨"second"⟩ 4 none none, ten⟩
    r.isCreated = true ∧ (r.execute c).toOption.map (fun p => p.1.available) = some 1 ∧
      ∃ after es, r.execute ⟨.expire, ten⟩ = .ok (after, es) ∧
        SameFate r ten (Joins es) (r.execute c) (after.execute c) := by
  intro r c
  have created : r.isCreated = true := by decide +kernel
  have accepted : (r.execute c).toOption.map (fun p => p.1.available) = some 1 := by decide +kernel
  exact ⟨created, accepted, sameFate_reserve created ⟨"second"⟩ 4 none none ten⟩

end Stockroom.StockRecord
