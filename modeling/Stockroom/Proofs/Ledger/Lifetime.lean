import Stockroom.Proofs.Ledger.Conclusion
import Stockroom.Proofs.Ledger.Settings
import Stockroom.Proofs.Ledger.Sweep
import Stockroom.Proofs.Movement.Capacity
import Stockroom.Proofs.Time.Shift

/-! Lifetimes from settings. Whatever is set, a lifetime is short enough to be added to any moment
but those of the calendar's last year and long enough to lead into the future. So a reservation is
not refused for its expiry, and the hold that is stored expires just one lifetime after the reading
of the clock at which it was placed. -/
namespace Stockroom

namespace StockRecord
set_option autoImplicit false

/-- The only flaw that can be found in a reservation with an expiry to come. -/
theorem flaw_of_decideReserve {r : StockRecord} {id : ReservationId} {q : Int}
    {notes : Option String} {expiresAt : Option Timestamp} {now : Timestamp} {flaw : Flaw}
    (later : ∀ t ∈ expiresAt, ¬t ≤ now)
    (h : r.decideReserve id q notes expiresAt now = .error (.validation flaw)) :
    flaw = .quantityNotPositive := by
  simp only [decideReserve, ensurePositive, ensureCreated, bind_eq_error_iff,
    ensure_eq_error_iff] at h
  simp only [StockError.validation.injEq, reduceCtorEq, and_false, false_or, return_ne_error,
    ensureFresh_ne_validation] at h
  obtain ⟨-, rfl⟩ | ⟨-, -, -, -, -, -, ⟨past, -⟩ | ⟨-, -, -, -, -, never⟩⟩ := h
  · rfl
  · exact absurd later past
  · exact never.elim

end StockRecord

namespace Ledger

open StockRecord (eight)

variable {w : Rivalry} {contested : SkuCode → Bool} {ttl : Option Duration} {now : Timestamp}
  {config : LedgerConfig}

/-! ## Lifetimes -/

/-- When a hold expires that is placed at `now` for a lifetime: never if it has none, and else just
then, later than `now`. -/
structure DueAt (ttl : Option Duration) (now : Timestamp)
    (expiresAt : Option Timestamp) : Prop where
  endless : ttl = none → expiresAt = none
  ends : ∀ d ∈ ttl, ∃ t, expiresAt = some t ∧ now.shift? d.nanos = some t ∧
    t.count = now.count + d.nanos ∧ now ≤ t ∧ now ≠ t

/-- At least a second, and at most 365 days. -/
def IsMeasured (ttl : Option Duration) : Prop :=
  ∀ d ∈ ttl, 1000000000 ≤ d.nanos ∧ d.nanos ≤ 31536000000000000

theorem IsMeasured.expiry (h : IsMeasured ttl) (hn : now.IsTimely) :
    ∃ e, Ledger.expiry ttl now = .ok e ∧ DueAt ttl now e := by
  cases ttl with
  | none => exact ⟨none, rfl, fun _ => rfl, nofun⟩
  | some d =>
    obtain ⟨h1, h2⟩ := h d rfl
    obtain ⟨t, shifted, count, later⟩ := hn.shift? h1 h2
    have due : ∀ d' ∈ some d, ∃ t', some t = some t' ∧ now.shift? d'.nanos = some t' ∧
        t'.count = now.count + d'.nanos ∧ now ≤ t' ∧ now ≠ t' := by
      rintro _ ⟨⟩
      exact ⟨t, rfl, shifted, count, Timestamp.not_le_iff.1 later⟩
    refine ⟨some t, ?_, nofun, due⟩
    unfold Ledger.expiry
    simp only [shifted]

theorem DueAt.later {expiresAt : Option Timestamp} (h : DueAt ttl now expiresAt) :
    ∀ t ∈ expiresAt, ¬t ≤ now := by
  intro t ht
  cases ttl with
  | none =>
    rw [h.endless rfl] at ht
    cases ht
  | some d =>
    obtain ⟨t', rfl, -, -, later⟩ := h.ends d rfl
    cases ht
    exact Timestamp.not_le_iff.2 later

theorem IsMeasured.admitted (h : IsMeasured ttl) : ∀ d ∈ ttl, d.nanos ≤ Timestamp.longestShift := by
  intro d hd
  have s1 := (h d hd).2
  unfold Timestamp.longestShift
  omega

/-- The command that a reservation for a lifetime is carried out by. -/
theorem IsMeasured.order (h : IsMeasured ttl) (hn : now.IsTimely) (id : ReservationId) (q : Int)
    (notes : Option String) :
    ∃ expiresAt, DueAt ttl now expiresAt ∧
      ((Ledger.expiry ttl now).map fun expiresAt =>
        (⟨.reserve id q notes expiresAt, now⟩ : Command)) =
        .ok ⟨.reserve id q notes expiresAt, now⟩ := by
  obtain ⟨expiresAt, he, due⟩ := h.expiry hn
  exact ⟨expiresAt, due, by rw [he]; rfl⟩

/-! ## Reservations -/

section Reservations

variable {sku : SkuCode} {id : ReservationId} {q : Int} {notes : Option String}

/-- How a reservation for a lifetime ends, and with which own writes: the only flaw it may have is
its quantity, and what it stores has the hold, placed at a reading of the clock. -/
structure Places (w : World) (sku : SkuCode) (id : ReservationId) (q : Int) (notes : Option String)
    (ttl : Option Duration) (result : Except LedgerError StockRecord)
    (own : List StockRecord) : Prop where
  flaw : ∀ flaw, result = .error (.stock (.validation flaw)) → flaw = .quantityNotPositive
  placed : ∀ r, result = .ok r → own = [r] ∧ r.sku = sku ∧
    ∃ now expiresAt, w.Reads now ∧ DueAt ttl now expiresAt ∧
      r.reservation? id = some (.place id q notes now expiresAt)

theorem ofStore_ne_validation (e : StoreError) (flaw : Flaw) :
    LedgerError.ofStore e ≠ .stock (.validation flaw) := by
  cases e <;> simp [LedgerError.ofStore]

/-- A reservation that is accepted is of consequence. -/
theorem not_idle_reserve {r next : StockRecord} {expiresAt : Option Timestamp} :
    r.execute ⟨.reserve id q notes expiresAt, now⟩ ≠ .ok (next, []) := by
  intro he
  obtain ⟨-, -, -, -, -, -, events⟩ :=
    StockRecord.decideReserve_eq_ok_iff.1 (StockRecord.execute_eq_ok_iff.1 he).1
  simp at events

theorem concludes_reserve (hw : w.Spares contested)
    (clock : ∀ now, w.toWorld.Reads now → now.IsTimely) (hm : IsMeasured config.reservationTtl) :
    Concludes w contested (reserve config sku q id notes)
      (Places w.toWorld sku id q notes config.reservationTtl) := by
  unfold reserve
  rw [if_pos hm.admitted]
  refine (concludes_commit hw config sku _).answer ?_
  intro result own settled
  cases settled with
  | failed e he =>
    refine ⟨fun flaw h => ?_, fun _ h => (by cases h)⟩
    have refusal : e = .stock (.validation flaw) := Except.error.inj h
    cases he with
    | store e => exact absurd refusal (ofStore_ne_validation e flaw)
    | contended sku attempts => cases refusal
    | undecided now e hn hc =>
      obtain ⟨expiresAt, -, made⟩ := hm.order (clock now hn) id q notes
      cases made.symm.trans hc
    | refused now c r e hn hc he =>
      obtain ⟨expiresAt, due, made⟩ := hm.order (clock now hn) id q notes
      cases made.symm.trans hc
      cases refusal
      exact StockRecord.flaw_of_decideReserve due.later (StockRecord.execute_eq_error_iff.1 he)
  | idle now c base next hn hc hb he =>
    obtain ⟨expiresAt, -, made⟩ := hm.order (clock now hn) id q notes
    cases made.symm.trans hc
    exact absurd he not_idle_reserve
  | stored now c base next events version hn hc hb he =>
    obtain ⟨expiresAt, due, made⟩ := hm.order (clock now hn) id q notes
    cases made.symm.trans hc
    refine ⟨fun _ h => (by cases h), ?_⟩
    rintro r ⟨⟩
    have books := hb.wellFormed.books_execute (b := ⟨id, q, notes, expiresAt, now⟩) he
    have sku_eq := (hb.wellFormed.lawful_execute he version).sku_eq.trans hb.sku_eq
    exact ⟨rfl, sku_eq, now, expiresAt, hn, due, (books.reservation? id).trans (if_pos rfl)⟩

/-- How a reservation for a lifetime ends among rivals. Where they leave the unit alone,
what it has stored stays. -/
structure Lasts (w : Rivalry) (sku : SkuCode) (id : ReservationId) (q : Int) (notes : Option String)
    (ttl : Option Duration) (result : Except LedgerError StockRecord) (after : Rivaled) : Prop
    extends Places w.toWorld sku id q notes ttl result after.written where
  stored : (∀ n question s, ∀ o ∈ w.rivals n question s, o.sku ≠ sku) →
    ∀ r, result = .ok r → after.store.load sku = some r

theorem lasts_reserve (clock : ∀ now, w.toWorld.Reads now → now.IsTimely)
    (hm : IsMeasured config.reservationTtl) {s : Store} (hs : s.Lawful) :
    Lasts w sku id q notes config.reservationTtl (w.run s (reserve config sku q id notes)).1
      (w.run s (reserve config sku q id notes)).2 := by
  constructor
  · have any : w.Spares fun _ => true := fun _ _ _ _ _ => rfl
    obtain ⟨own, places, ht⟩ := concludes_reserve any clock hm ⟨⟨s, 0, []⟩, []⟩ hs
    have written : (w.run s (reserve config sku q id notes)).2.written = own := ht.written
    rw [written]
    exact places
  · intro alone r hr
    have others : w.Spares fun k => decide (k ≠ sku) :=
      fun n question s o ho => decide_eq_true (alone n question s o ho)
    obtain ⟨own, places, ht⟩ := concludes_reserve others clock hm ⟨⟨s, 0, []⟩, []⟩ hs
    obtain ⟨rfl, hk, -⟩ := places.placed r hr
    have stored := ht.spared sku (by simp)
    rw [← hk] at stored ⊢
    exact stored.trans (Store.load_put_self s r)

end Reservations

/-- Whatever the settings are and whatever calls have led to the store, a reservation with them is
not refused for its expiry in time, and if it is accepted the hold lasts just as long as set. -/
theorem heeds_and_lasts_reached (lookup : String → Option String) (errands : List Errand)
    (turns : List Turn) (clock : ∀ now, w.toWorld.Reads now → now.IsTimely) (sku : SkuCode)
    (q : Int) (id : ReservationId) (notes : Option String) :
    let config := (LedgerConfig.ofSettings lookup).1
    let ended := w.run (reached errands turns) (reserve config sku q id notes)
    config.Heeds lookup ∧ Lasts w sku id q notes config.reservationTtl ended.1 ended.2 :=
  ⟨LedgerConfig.heeds_ofSettings lookup,
    lasts_reserve clock (fun _ => LedgerConfig.ttl_bounds lookup) (lawful_reached errands turns)⟩

/-- A minute, with blanks around it, and nothing else set. -/
def minute (key : String) : Option String := if key = LedgerConfig.ttlKey then some " 60 " else none

/-- Eight o'clock, with nobody else about. -/
def undisturbed : Rivalry where
  world _ q := (Scene.answer q (.start eight fun _ => none)).1
  bus _ _ := none
  rivals _ _ _ := []

theorem heeds_and_lasts_reached_minute :
    ∃ r t, (undisturbed.run (reached holding oneByOne)
        (reserve (LedgerConfig.ofSettings minute).1 washers.sku 3 ⟨"parcel"⟩ none)).1 = .ok r ∧
      r.reservation? ⟨"parcel"⟩ = some (.place ⟨"parcel"⟩ 3 none eight (some t)) ∧
        t.count = eight.count + 60000000000 := by
  have clock : ∀ now, undisturbed.toWorld.Reads now → now.IsTimely := by
    rintro _ ⟨n, rfl⟩
    exact (by decide : eight.IsTimely)
  have ttl : (LedgerConfig.ofSettings minute).1.reservationTtl = some (.ofSeconds 60) := by
    decide +kernel
  have accepted : (undisturbed.run (reached holding oneByOne)
      (reserve (LedgerConfig.ofSettings minute).1 washers.sku 3
        ⟨"parcel"⟩ none)).1.toOption.isSome = true := by
    decide +kernel
  obtain ⟨-, lasts⟩ :=
    heeds_and_lasts_reached minute holding oneByOne clock washers.sku 3 ⟨"parcel"⟩ none
  cases hr : (undisturbed.run (reached holding oneByOne)
      (reserve (LedgerConfig.ofSettings minute).1 washers.sku 3 ⟨"parcel"⟩ none)).1 with
  | error e =>
    rw [hr] at accepted
    cases accepted
  | ok r =>
    obtain ⟨-, -, _, expiresAt, ⟨n, rfl⟩, due, placed⟩ := lasts.placed r hr
    obtain ⟨t, rfl, -, count, -⟩ := due.ends _ ttl
    exact ⟨r, t, rfl, placed, count⟩

end Ledger

end Stockroom
