import Stockroom.Proofs.Movement.Drainage
import Stockroom.Proofs.Movement.Reclaim

/-! Expiry on time. The holds to expire are picked from one snapshot of the record, and none of them
is touched before its turn comes, so just they expire. What a sweep leaves of the holds is what a
later one would have left of them: a hold past its expiry stays so. As what is reserved is the sum
of the holds, a sweep on the way makes no difference to it either. -/
namespace Stockroom.StockRecord
set_option autoImplicit false

/-- How the overdue holds of a record expire: each of them once, in the order of the keys,
and nothing else does. -/
structure Lapses (r next : StockRecord) (es : List Event) (now : Timestamp) : Prop where
  mem_iff : ∀ e, e ∈ es ↔
    ∃ k x, r.reservation? k = some x ∧ x.IsOverdue now ∧ e = ⟨.expired k x.quantity, now⟩
  ascending : es.Pairwise fun d e => ∀ k ∈ d.change.reservation?,
    ∀ l ∈ e.change.reservation?, k.text < l.text
  reservation? : ∀ k, next.reservation? k = (r.reservation? k).map fun x =>
    if x.IsOverdue now then
      { x with
        state := .released
        quantity := 0
        closedAt := some now
        releaseReason := some .expired }
    else x
  reserved : next.reserved = r.reserved - total ((r.overdue now).map Reservation.quantity)
  available : next.available = r.available + total ((r.overdue now).map Reservation.quantity)
  rest : next = { r with
    reserved := next.reserved
    available := next.available
    reservations := next.reservations
    updatedAt := next.updatedAt }

/-- The same reservations are held, as they stand. -/
def SameHolds (r s : StockRecord) : Prop :=
  ∀ k x, x.isHeld = true → (s.reservation? k = some x ↔ r.reservation? k = some x)

variable {r s : StockRecord} {now t : Timestamp}

/-! ## Holds -/

theorem SameHolds.holds_eq (h : r.SameHolds s) : s.holds = r.holds := by
  have entries : s.reservations.entries.filter (fun e => e.2.isHeld) =
      r.reservations.entries.filter fun e => e.2.isHeld := by
    refine KeyMap.ascending_eq_of_mem_iff (s.reservations.ascending.filter _)
      (r.reservations.ascending.filter _) ?_
    intro e
    rw [List.mem_filter, List.mem_filter, ← KeyMap.get?_eq_some_iff, ← KeyMap.get?_eq_some_iff]
    exact and_congr_left fun held => h e.1 e.2 held
  unfold holds KeyMap.values
  rw [List.filter_map, List.filter_map]
  exact congrArg _ entries

theorem Covered.total_holds (h : r.Covered) :
    total (r.holds.map Reservation.quantity) = r.reserved := by
  have s1 := h.heldTotal_eq
  rw [heldTotal, ← Reservation.total_filter_isHeld] at s1
  exact s1

/-- What is available of a record depends on what is on hand and on what is held. -/
theorem WellFormed.sameCounters_of_sameHolds (hr : r.WellFormed) (hs : s.WellFormed)
    (h1 : s.onHand = r.onHand) (h2 : r.SameHolds s) : r.SameCounters s := by
  refine hr.sameCounters hs h1 ?_
  rw [← hs.sound.covered.total_holds, ← hr.sound.covered.total_holds, h2.holds_eq]

/-! ## One sweep -/

theorem mem_expiryEvents_iff (hk : r.Keyed) {e : Event} : e ∈ r.expiryEvents now ↔
    ∃ k x, r.reservation? k = some x ∧ x.IsOverdue now ∧ e = ⟨.expired k x.quantity, now⟩ := by
  rw [expiryEvents_eq, List.mem_map]
  constructor
  · rintro ⟨x, hx, rfl⟩
    obtain ⟨⟨k, hk'⟩, hs⟩ := mem_staleHolds_iff.1 hx
    refine ⟨k, x, hk', Reservation.isStaleAt_iff.1 hs, ?_⟩
    rw [lapse, hk k x hk']
  · rintro ⟨k, x, hx, overdue, rfl⟩
    refine ⟨x, mem_staleHolds_iff.2 ⟨⟨k, hx⟩, Reservation.isStaleAt_iff.2 overdue⟩, ?_⟩
    rw [lapse, hk k x hx]

theorem Keyed.ascending_expiryEvents (h : r.Keyed) (now : Timestamp) : (r.expiryEvents now).Pairwise
    fun d e => ∀ k ∈ d.change.reservation?, ∀ l ∈ e.change.reservation?, k.text < l.text := by
  refine List.pairwise_map.2 ((h.ascending_values.filter _).imp fun {x y} lt => ?_)
  intro k hk l hl
  cases hk
  cases hl
  exact lt

/-- What no expiry touches, the value of the stock put aside for being
derived from what is on hand. -/
def untouched (r : StockRecord) : StockRecord :=
  { r with
    reserved := 0
    available := 0
    totalValue := stockValue r.unitCost r.onHand
    reservations := .empty
    updatedAt := none }

theorem WellFormed.rest_swept (h : r.WellFormed) (hc : r.isCreated = true)
    (now : Timestamp) : r.swept now = { r with
    reserved := (r.swept now).reserved
    available := (r.swept now).available
    reservations := (r.swept now).reservations
    updatedAt := (r.swept now).updatedAt } := by
  have hs : (r.swept now).WellFormed := h.execute (execute_expire hc now)
  have frame : (r.swept now).untouched = r.untouched :=
    lapses_frame untouched (fun _ _ => rfl) r (r.staleHolds now)
  have value : (r.swept now).totalValue = r.totalValue := by
    rw [hs.valued, h.valued]
    exact congrArg totalValue frame
  generalize r.swept now = next at frame value ⊢
  cases next
  cases r
  simp only [untouched, mk.injEq] at frame value ⊢
  simp only [frame, value, and_self]

theorem WellFormed.lapses_swept (h : r.WellFormed) (hc : r.isCreated = true) (now : Timestamp) :
    r.Lapses (r.swept now) (r.expiryEvents now) now where
  mem_iff _ := mem_expiryEvents_iff h.sound.orderly.keyed
  ascending := h.sound.orderly.keyed.ascending_expiryEvents now
  reservation? k := by
    rw [h.sound.reservation?_swept]
    simp only [Reservation.isStaleAt_iff]
    rfl
  reserved := by
    rw [overdue_eq]
    exact reserved_lapses r (r.staleHolds now) now
  available := by
    rw [overdue_eq]
    exact h.available_swept hc
  rest := h.rest_swept hc now

/-! ## Two sweeps -/

/-- An entry that is held after a sweep was held before it and is not past its expiry. -/
theorem Sound.reservation?_swept_eq_iff (h : r.Sound) {k : ReservationId} {x : Reservation}
    (hx : x.isHeld = true) :
    (r.swept now).reservation? k = some x ↔
      r.reservation? k = some x ∧ x.isStaleAt now = false := by
  rw [h.reservation?_swept, Option.map_eq_some_iff]
  constructor
  · rintro ⟨y, hy, e⟩
    by_cases stale : y.isStaleAt now = true
    · rw [if_pos stale] at e
      rw [← e] at hx
      cases hx
    · rw [if_neg stale] at e
      rw [← e]
      exact ⟨hy, Bool.eq_false_iff.2 stale⟩
  · rintro ⟨hy, fresh⟩
    refine ⟨x, hy, ?_⟩
    rw [fresh]
    rfl

theorem Sound.sameHolds_swept (h : r.Sound) (hs : (r.swept t).Sound) (le : t ≤ now) :
    (r.swept now).SameHolds ((r.swept t).swept now) := by
  intro k x hx
  rw [hs.reservation?_swept_eq_iff hx, h.reservation?_swept_eq_iff hx,
    h.reservation?_swept_eq_iff hx, and_assoc]
  refine and_congr_right fun _ => and_iff_right_of_imp fun fresh => ?_
  rw [Bool.eq_false_iff] at fresh ⊢
  exact fun stale => fresh (Reservation.isStaleAt_of_le le stale)

/-! ## Runs -/

/-- The holds of a record expire on time, no matter how often it is looked after them. -/
structure Punctual (r : StockRecord) : Prop where
  exact : ∀ now, ∃ next es, r.execute ⟨.expire, now⟩ = .ok (next, es) ∧ r.Lapses next es now
  settled : ∀ now next es, r.execute ⟨.expire, now⟩ = .ok (next, es) →
    ∀ t, t ≤ now → next.execute ⟨.expire, t⟩ = .ok (next, [])
  composed : ∀ t now, t ≤ now → ∃ first es second fs once gs,
    r.execute ⟨.expire, t⟩ = .ok (first, es) ∧ first.execute ⟨.expire, now⟩ = .ok (second, fs) ∧
      r.execute ⟨.expire, now⟩ = .ok (once, gs) ∧ once.SameCounters second ∧ once.SameHolds second

theorem WellFormed.punctual (h : r.WellFormed) (hc : r.isCreated = true) : r.Punctual where
  exact now := ⟨_, _, execute_expire hc now, h.lapses_swept hc now⟩
  settled now next es he t le := by
    cases (execute_expire hc now).symm.trans he
    rw [execute_expire (isCreated_execute he)]
    have none : (r.swept now).expiryEvents t = [] := by
      rw [expiryEvents_eq, h.sound.staleHolds_swept_of_le le, List.map_nil]
    rw [swept, none]
    rfl
  composed t now le := by
    have first := execute_expire hc t
    have hf : (r.swept t).WellFormed := h.execute first
    have second := execute_expire (isCreated_execute first) now
    have once := execute_expire hc now
    have onHand : ((r.swept t).swept now).onHand = (r.swept now).onHand :=
      calc
        _ = (r.swept t).onHand := onHand_lapses _ _ _
        _ = r.onHand := onHand_lapses _ _ _
        _ = (r.swept now).onHand := (onHand_lapses _ _ _).symm
    have held := h.sound.sameHolds_swept hf.sound le
    exact ⟨_, _, _, _, _, _, first, second, once,
      (h.execute once).sameCounters_of_sameHolds (hf.execute second) onHand held, held⟩

/-- However the record of a created unit is run, its holds expire on time. -/
theorem punctual_run {id : RecordId} {sku : SkuCode} {cs : List Command}
    (hc : ((empty id sku).run cs).isCreated = true) : ((empty id sku).run cs).Punctual :=
  ((wellFormed_empty id sku).run cs).punctual hc

/-- One hold for good, one until nine and one until ten. -/
def stacked : List Command :=
  [⟨.create ⟨⟨.ofNat 1⟩, 9, .standard, none, none, none⟩, eight⟩,
    ⟨.reserve ⟨"a"⟩ 1 none none, eight⟩, ⟨.reserve ⟨"b"⟩ 2 none (some nine), eight⟩,
    ⟨.reserve ⟨"c"⟩ 4 none (some ten), eight⟩]

theorem punctual_run_stacked :
    let r := (empty ⟨.ofNat 1⟩ ⟨"BOLT"⟩).run stacked
    r.isCreated = true ∧ r.reserved = 7 ∧ ∃ next,
      r.execute ⟨.expire, nine⟩ = .ok (next, [⟨.expired ⟨"b"⟩ 2, nine⟩]) ∧ next.reserved = 5 ∧
        next.execute ⟨.expire, eight⟩ = .ok (next, []) := by
  intro r
  have created : r.isCreated = true := by decide +kernel
  have held : r.reserved = 7 := by decide +kernel
  have overdue : r.overdue nine = [.place ⟨"b"⟩ 2 none eight (some nine)] := by decide +kernel
  have punctual : r.Punctual := punctual_run created
  obtain ⟨next, es, he, hl⟩ := punctual.exact nine
  have events : es = [⟨.expired ⟨"b"⟩ 2, nine⟩] := by
    cases (execute_expire created nine).symm.trans he
    rw [expiryEvents_eq, ← overdue_eq, overdue]
    rfl
  have left : next.reserved = 5 := by
    rw [hl.reserved, held, overdue]
    rfl
  subst events
  exact ⟨created, held, next, he, left, punctual.settled nine next _ he eight (by decide)⟩

end Stockroom.StockRecord
