import Stockroom.Movement.Words
import Stockroom.Proofs.Movement.Range

/-! No sum of the engine leaves its word. On a record in order with its units on hand in a word,
the engine in words comes to the same as the one in plain numbers: each quantity it adds up is
that of a hold, no hold is of less than nothing, and all holds together are of at most what is
on hand. On any record, what the engine in words comes to is what the one in plain numbers does,
if it comes to anything. -/
namespace Stockroom
set_option autoImplicit false

/-- The numbers of a command are words. -/
def Action.InRange : Action → Prop
  | .create details => details.InRange
  | .reserve _ quantity _ _ => fitsInt64 quantity = true
  | .release _ quantity _ => fitsInt64 quantity = true
  | .consume _ quantity => fitsInt64 quantity = true
  | .adjust delta _ _ => fitsInt64 delta = true
  | .expire => True
  | .deactivate _ => True

theorem Action.InRange.details {a : Action} (h : a.InRange) :
    ∀ details, a = .create details → details.InRange := by
  rintro details rfl
  exact h

/-! ## Sums -/

theorem foldlM_addWord?_eq {qs : List Int} {a : Int} (h0 : 0 ≤ a) (h : ∀ q ∈ qs, 0 ≤ q)
    (hb : fitsInt64 (a + total qs) = true) : qs.foldlM addWord? a = some (a + total qs) := by
  induction qs generalizing a with
  | nil => exact congrArg some (Int.add_zero a).symm
  | cons q qs ih =>
    have hq := h q List.mem_cons_self
    have hqs : ∀ p ∈ qs, 0 ≤ p := fun p hp => h p (List.mem_cons_of_mem q hp)
    have s1 := total_nonneg hqs
    rw [total_cons, ← Int.add_assoc] at hb ⊢
    -- with nothing negative to come, a sum on the way is at most the whole
    have s2 : fitsInt64 (a + q) = true := fitsInt64_of_le (by omega) (by omega) hb
    rw [List.foldlM_cons, addWord?_eq s2]
    exact ih (by omega) hqs hb

theorem totalWord?_eq {qs : List Int} (h : ∀ q ∈ qs, 0 ≤ q) (hb : fitsInt64 (total qs) = true) :
    totalWord? qs = some (total qs) := by
  have s1 := foldlM_addWord?_eq (Int.le_refl 0) h ((Int.zero_add (total qs)).symm ▸ hb)
  rw [Int.zero_add] at s1
  exact s1

namespace StockRecord

variable {r : StockRecord} {t now : Timestamp} {es : List Event}

/-! ## Application -/

theorem modify?_eq {m : KeyMap ReservationId Reservation} {id : ReservationId} {x : Reservation}
    (f : Reservation → Option Reservation) (g : Reservation → Reservation) (hx : m.get? id = some x)
    (hf : f x = some (g x)) : m.modify? id f = some (m.modify id g) := by
  have s1 : m.modify id (fun _ => g x) = m.modify id g := by
    refine KeyMap.modify_congr fun a ha => ?_
    cases hx.symm.trans ha
    rfl
  simp only [KeyMap.modify?, hx, hf, Option.map_some, s1]

theorem giveBackWord?_eq {x : Reservation} {q : Int} (h : fitsInt64 (x.quantity - q) = true)
    (reason : Option String) (t : Timestamp) :
    x.giveBackWord? q reason t = some (x.giveBack q reason t) := by
  unfold Reservation.giveBackWord?
  rw [subWord?_eq h]
  rfl

theorem Accounted.changeWord?_eq {c : Change} (h : r.Accounted) (hb : fitsInt64 r.onHand = true)
    (hf : c.Fits r) :
    r.changeWord? t c = some (r.change t c) := by
  obtain ⟨s1, s2, -⟩ := h.covered
  have fits : ∀ n, 0 ≤ n → n ≤ r.onHand → fitsInt64 n = true :=
    fun n h0 h1 => fitsInt64_of_le h0 h1 hb
  cases c with
  | created id sku details => rfl
  | reserved id q notes expiresAt =>
    obtain ⟨-, h0, hq, -⟩ := hf
    rw [changeWord?, addWord?_eq (fits _ (by omega) (by omega))]
    rfl
  | released id q reason =>
    obtain ⟨-, x, hx, hh, h0, hq⟩ := hf
    have s3 := h.quantity_le_reserved hx hh
    have s4 := modify?_eq (fun x => x.giveBackWord? q reason t) (fun x => x.giveBack q reason t) hx
      (giveBackWord?_eq (fits _ (by omega) (by omega)) reason t)
    rw [changeWord?, subWord?_eq (fits _ (by omega) (by omega)), s4]
    rfl
  | consumed id q held =>
    obtain ⟨-, x, hx, hh, h0, hq, rfl⟩ := hf
    have s3 := h.quantity_le_reserved hx hh
    rw [changeWord?, subWord?_eq (fits _ (by omega) (by omega)),
      subWord?_eq (fits _ (by omega) (by omega))]
    rfl
  | expired id q =>
    obtain ⟨-, x, hx, hh, rfl⟩ := hf
    have s3 := h.quantity_le_reserved hx hh
    have s4 := h.quantity_nonneg hx hh
    rw [changeWord?, subWord?_eq (fits _ (by omega) (by omega))]
    rfl
  | adjusted delta reason reference =>
    obtain ⟨-, -, hq, -⟩ := hf
    rw [changeWord?, addWord?_eq hq]
    rfl
  | deactivated reason => rfl

theorem deriveWord?_eq (h : r.Covered) (hb : fitsInt64 r.onHand = true) :
    r.deriveWord? = some r.derive := by
  have h0 := h.reserved_nonneg
  have h1 := h.reserved_le
  have s1 : fitsInt64 (r.onHand - r.reserved) = true := fitsInt64_of_le (by omega) (by omega) hb
  rw [deriveWord?, subWord?_eq s1]
  rfl

theorem Accounted.applyWord?_eq {e : Event} (h : r.Accounted) (hb : fitsInt64 r.onHand = true)
    (hf : e.change.Fits r)
    (hc : ∀ id sku details, e.change = .created id sku details → details.InRange) :
    r.applyWord? e = some (r.apply e) := by
  have s1 := h.onHand_apply hb hf hc
  obtain ⟨h1, h2, h3⟩ := (h.change (t := e.occurredAt) hf).covered
  rw [applyWord?, h.changeWord?_eq hb hf]
  exact deriveWord?_eq ⟨h1, h2, h3⟩ s1

theorem Admitted.applyAllWord?_eq (h : r.Admitted) (hb : fitsInt64 r.onHand = true)
    (hf : r.FitsAll es)
    (hc : ∀ e ∈ es, ∀ id sku details, e.change = .created id sku details → details.InRange) :
    r.applyAllWord? es = some (r.applyAll es) := by
  induction es generalizing r with
  | nil => rfl
  | cons e es ih =>
    have hc1 := hc e List.mem_cons_self
    have s1 := h.accounted.onHand_apply hb hf.1 hc1
    have s2 := ih (h.accounted.apply hf.1) s1 hf.2 fun d hd => hc d (List.mem_cons_of_mem e hd)
    rw [applyAllWord?, List.foldlM_cons, h.accounted.applyWord?_eq hb hf.1 hc1]
    exact s2

/-! ## Decision -/

section Lifting

variable {α β : Type} {f : α → ExceptT StockError Option β}

theorem run_check_bind (x : Except StockError α) {g : α → Except StockError β}
    (h : ∀ a, (f a).run = some (g a)) :
    ((liftM x : ExceptT StockError Option α) >>= f).run = some (x >>= g) := by
  cases x with
  | error e => rfl
  | ok a => exact h a

theorem run_word_bind {x : Option α} {a : α} (h : x = some a) :
    ((liftM x : ExceptT StockError Option α) >>= f).run = (f a).run := by
  subst h
  rfl

end Lifting

theorem Admitted.decideReserveWord?_eq (h : r.Admitted) (hb : fitsInt64 r.onHand = true)
    (id : ReservationId) (q : Int) (notes : Option String) (expiresAt : Option Timestamp)
    (now : Timestamp) :
    (r.decideReserveWord? id q notes expiresAt now).run =
      some (r.decideReserve id q notes expiresAt now) := by
  obtain ⟨s1, s2, s3⟩ := h.consistent.covered
  have s4 := h.consistent.available_eq
  obtain ⟨s5, s6⟩ := h.orderly.reclaimable_bounds now
  have fits : ∀ n, 0 ≤ n → n ≤ r.onHand → fitsInt64 n = true :=
    fun n h0 h1 => fitsInt64_of_le h0 h1 hb
  have reclaimed : totalWord? ((r.staleHolds now).map Reservation.quantity) =
      some (r.reclaimable now) :=
    totalWord?_eq h.orderly.stale_nonneg (fits (r.reclaimable now) s5 (by omega))
  have free : addWord? r.available (r.reclaimable now) = some (r.available + r.reclaimable now) :=
    addWord?_eq (fits _ (by omega) (by omega))
  unfold decideReserveWord? decideReserve
  refine run_check_bind _ fun _ => ?_
  refine run_check_bind _ fun _ => ?_
  refine run_check_bind _ fun _ => ?_
  refine run_check_bind _ fun _ => ?_
  rw [run_word_bind reclaimed]
  refine run_check_bind _ fun _ => ?_
  rw [run_word_bind free]
  refine run_check_bind _ fun _ => ?_
  rfl

theorem decideAdjustWord_eq (delta : Int) (reason reference : Option String) (now : Timestamp) :
    r.decideAdjustWord delta reason reference now = r.decideAdjust delta reason reference now := by
  unfold decideAdjustWord decideAdjust addWord? word? ensure
  by_cases hb : fitsInt64 (r.onHand + delta) = true
  · simp only [hb, if_true]
    rfl
  · simp only [hb]
    rfl

variable {c : Command}

theorem Admitted.eventsForWord?_eq (h : r.Admitted) (hb : fitsInt64 r.onHand = true) (c : Command) :
    r.eventsForWord? c = some (r.eventsFor c) := by
  obtain ⟨a, now⟩ := c
  cases a with
  | reserve id q notes expiresAt => exact h.decideReserveWord?_eq hb id q notes expiresAt now
  | adjust delta reason reference =>
    exact congrArg some (decideAdjustWord_eq delta reason reference now)
  | _ => rfl

/-- Where the sum of a correction does not fit a word, and only there, a
command is refused for it. -/
theorem eventsFor_eq_overflow_iff : r.eventsFor c = .error (.validation .onHandOverflow) ↔
    ∃ delta reason reference, c.action = .adjust delta reason reference ∧
      r.isCreated = true ∧ delta ≠ 0 ∧ fitsInt64 (r.onHand + delta) = false := by
  obtain ⟨a, now⟩ := c
  cases a with
  | create details =>
    simp only [eventsFor, decideCreate, ensureValuable, bind_eq_error_iff, ensure_eq_error_iff]
    simp [return_ne_error]
  | reserve id q notes expiresAt =>
    simp only [eventsFor, decideReserve, ensurePositive, ensureCreated,
      bind_eq_error_iff, ensure_eq_error_iff]
    simp [return_ne_error, ensureFresh_ne_validation]
  | release id q reason =>
    simp only [eventsFor, decideRelease, ensurePositive, ensureCreated,
      bind_eq_error_iff, ensure_eq_error_iff]
    simp [return_ne_error, heldReservation_ne_validation]
  | consume id q =>
    simp only [eventsFor, decideConsume, ensurePositive, ensureCreated,
      bind_eq_error_iff, ensure_eq_error_iff]
    simp [return_ne_error, heldReservation_ne_validation]
  | adjust delta reason reference =>
    simp only [eventsFor, decideAdjust, ensureCreated, ensureValuable,
      bind_eq_error_iff, ensure_eq_error_iff]
    simp [return_ne_error, ensure_eq_ok_iff]
  | expire =>
    simp only [eventsFor, decideExpire, ensureCreated, bind_eq_error_iff, ensure_eq_error_iff]
    simp [return_ne_error]
  | deactivate reason =>
    simp only [eventsFor, decideDeactivate, ensureCreated, bind_eq_error_iff, ensure_eq_error_iff]
    simp [return_ne_error]

/-! ## Execution -/

theorem Admitted.executeWord?_eq (h : r.Admitted) (hb : fitsInt64 r.onHand = true)
    (hc : ∀ details, c.action = .create details → details.InRange) :
    r.executeWord? c = some (r.execute c) := by
  rw [executeWord?, h.eventsForWord?_eq hb c, StockRecord.execute]
  cases hd : r.eventsFor c with
  | error e => rfl
  | ok es =>
    have s1 : r.applyAllWord? es = some (r.applyAll es) :=
      h.applyAllWord?_eq hb (h.fitsAll hd) fun e he id sku details hk =>
        hc details (action_of_created_mem hd he hk)
    show (r.applyAllWord? es >>= fun next => some (Except.ok (next, es))) = _
    rw [s1]
    rfl

theorem Admitted.runWord?_eq {cs : List Command} (h : r.Admitted) (hb : fitsInt64 r.onHand = true)
    (hc : ∀ c ∈ cs, ∀ details, c.action = .create details → details.InRange) :
    r.runWord? cs = some (r.run cs) ∧ fitsInt64 (r.run cs).onHand = true := by
  induction cs generalizing r with
  | nil => exact ⟨rfl, hb⟩
  | cons c cs ih =>
    have hc1 := hc c List.mem_cons_self
    have hcs : ∀ d ∈ cs, ∀ details, d.action = .create details → details.InRange :=
      fun d hd => hc d (List.mem_cons_of_mem c hd)
    rw [runWord?, h.executeWord?_eq hb hc1, StockRecord.run]
    cases he : r.execute c with
    | error e => exact ih h hb hcs
    | ok p => exact ih (h.execute he) (h.onHand_execute hb he hc1) hcs

/-! ## Consistency -/

theorem Orderly.heldWord?_eq (h : r.Orderly) (hb : fitsInt64 r.heldTotal = true) :
    r.heldWord? = some r.heldTotal := by
  have s1 : ∀ q ∈ (r.reservations.values.filter Reservation.isHeld).map Reservation.quantity,
      0 ≤ q := by
    intro q hq
    obtain ⟨x, hx, rfl⟩ := List.mem_map.1 hq
    obtain ⟨hm, hh⟩ := List.mem_filter.1 hx
    rw [← Reservation.heldQuantity_of_isHeld hh]
    exact h.heldQuantity_nonneg hm
  have s2 := Reservation.total_filter_isHeld r.reservations.values
  rw [heldWord?, totalWord?_eq s1 (s2 ▸ hb), s2, heldTotal]

/-! ## What words come to -/

/-- If the computation comes to anything, it comes to `a`. -/
def ComesTo {α : Type} (x : Option α) (a : α) : Prop := ∀ b ∈ x, b = a

theorem comesTo_some {α : Type} (a : α) : ComesTo (some a) a := fun _ h => (Option.some.inj h).symm

theorem ComesTo.bind {α β : Type} {x : Option α} {a : α} {f : α → Option β} {b : β}
    (hx : ComesTo x a) (hf : ComesTo (f a) b) : ComesTo (x >>= f) b := by
  intro c hc
  obtain ⟨a', ha, hc⟩ := Option.bind_eq_some_iff.1 hc
  rw [hx a' ha] at hc
  exact hf c hc

theorem comesTo_word (n : Int) : ComesTo (word? n) n := by
  intro m hm
  unfold word? at hm
  split at hm <;> cases hm
  rfl

theorem comesTo_addWord (a b : Int) : ComesTo (addWord? a b) (a + b) := comesTo_word _

theorem comesTo_subWord (a b : Int) : ComesTo (subWord? a b) (a - b) := comesTo_word _

theorem comesTo_foldlM_addWord (qs : List Int) (a : Int) :
    ComesTo (qs.foldlM addWord? a) (a + total qs) := by
  induction qs generalizing a with
  | nil => exact (Int.add_zero a).symm ▸ comesTo_some a
  | cons q qs ih =>
    rw [List.foldlM_cons, total_cons, ← Int.add_assoc]
    exact (comesTo_addWord a q).bind (ih (a + q))

theorem comesTo_totalWord (qs : List Int) : ComesTo (totalWord? qs) (total qs) :=
  Int.zero_add (total qs) ▸ comesTo_foldlM_addWord qs 0

theorem comesTo_modify {m : KeyMap ReservationId Reservation} {id : ReservationId}
    {f : Reservation → Option Reservation} {g : Reservation → Reservation}
    (h : ∀ x, ComesTo (f x) (g x)) : ComesTo (m.modify? id f) (m.modify id g) := by
  intro m' hm
  unfold KeyMap.modify? at hm
  split at hm
  · rename_i hx
    cases hm
    exact (KeyMap.modify_eq_self hx g).symm
  · rename_i x hx
    obtain ⟨y, hy, rfl⟩ := Option.map_eq_some_iff.1 hm
    refine KeyMap.modify_congr fun a ha => ?_
    cases hx.symm.trans ha
    exact h _ y hy

theorem comesTo_change (r : StockRecord) (t : Timestamp) (c : Change) :
    ComesTo (r.changeWord? t c) (r.change t c) := by
  cases c with
  | created id sku details => exact comesTo_some _
  | reserved id q notes expiresAt => exact (comesTo_addWord _ _).bind (comesTo_some _)
  | released id q reason =>
    have back (x : Reservation) : ComesTo (x.giveBackWord? q reason t) (x.giveBack q reason t) :=
      (comesTo_subWord _ _).bind (comesTo_some _)
    exact (comesTo_subWord _ _).bind ((comesTo_modify back).bind (comesTo_some _))
  | consumed id q held =>
    exact (comesTo_subWord _ _).bind ((comesTo_subWord _ _).bind (comesTo_some _))
  | expired id q => exact (comesTo_subWord _ _).bind (comesTo_some _)
  | adjusted delta reason reference => exact (comesTo_addWord _ _).bind (comesTo_some _)
  | deactivated reason => exact comesTo_some _

theorem comesTo_derive (r : StockRecord) : ComesTo r.deriveWord? r.derive :=
  (comesTo_subWord _ _).bind (comesTo_some _)

theorem comesTo_applyAll (r : StockRecord) (es : List Event) :
    ComesTo (r.applyAllWord? es) (r.applyAll es) := by
  induction es generalizing r with
  | nil => exact comesTo_some r
  | cons e es ih =>
    have s1 : ComesTo (r.applyWord? e) (r.apply e) :=
      (comesTo_change r e.occurredAt e.change).bind (comesTo_derive _)
    exact s1.bind (ih (r.apply e))

section Lifting

variable {α β : Type} {f : α → ExceptT StockError Option β}

theorem comesTo_check_bind (x : Except StockError α) {g : α → Except StockError β}
    (h : ∀ a, ComesTo (f a).run (g a)) :
    ComesTo ((liftM x : ExceptT StockError Option α) >>= f).run (x >>= g) := by
  cases x with
  | error e => exact comesTo_some _
  | ok a => exact h a

theorem comesTo_word_bind {x : Option α} {a : α} {y : Except StockError β} (hx : ComesTo x a)
    (h : ComesTo (f a).run y) : ComesTo ((liftM x : ExceptT StockError Option α) >>= f).run y := by
  cases x with
  | none => exact fun _ h => by cases h
  | some b =>
    cases hx b rfl
    exact h

end Lifting

theorem comesTo_decideReserve (r : StockRecord) (id : ReservationId) (q : Int)
    (notes : Option String) (expiresAt : Option Timestamp) (now : Timestamp) :
    ComesTo (r.decideReserveWord? id q notes expiresAt now).run
      (r.decideReserve id q notes expiresAt now) := by
  unfold decideReserveWord? decideReserve
  refine comesTo_check_bind _ fun _ => comesTo_check_bind _ fun _ => ?_
  refine comesTo_check_bind _ fun _ => comesTo_check_bind _ fun _ => ?_
  refine comesTo_word_bind (comesTo_totalWord _) (comesTo_check_bind _ fun _ => ?_)
  refine comesTo_word_bind (comesTo_addWord _ _) (comesTo_check_bind _ fun _ => ?_)
  exact comesTo_some _

theorem comesTo_execute (r : StockRecord) (c : Command) :
    ComesTo (r.executeWord? c) (r.execute c) := by
  have decided : ComesTo (r.eventsForWord? c) (r.eventsFor c) := by
    obtain ⟨a, now⟩ := c
    cases a with
    | reserve id q notes expiresAt => exact comesTo_decideReserve r id q notes expiresAt now
    | adjust delta reason reference =>
      show ComesTo (some (r.decideAdjustWord delta reason reference now))
          (r.decideAdjust delta reason reference now)
      rw [decideAdjustWord_eq]
      exact comesTo_some _
    | _ => exact comesTo_some _
  refine decided.bind ?_
  rw [StockRecord.execute]
  cases r.eventsFor c with
  | error e => exact comesTo_some _
  | ok es => exact (comesTo_applyAll r es).bind (comesTo_some _)

theorem comesTo_held (r : StockRecord) : ComesTo r.heldWord? r.heldTotal := by
  have s1 :=
    comesTo_totalWord ((r.reservations.values.filter Reservation.isHeld).map Reservation.quantity)
  rw [Reservation.total_filter_isHeld] at s1
  exact s1

theorem comesTo_inconsistency (r : StockRecord) :
    ComesTo r.inconsistencyWord? r.inconsistency? := by
  unfold inconsistencyWord? inconsistency?
  split
  · exact comesTo_some _
  · refine (comesTo_subWord _ _).bind ?_
    split
    · exact comesTo_some _
    · split
      · exact comesTo_some _
      · exact (comesTo_held r).bind (comesTo_some _)

/-- The check of a consistent record in words passes if the held units can be added up. -/
theorem IsConsistent.inconsistencyWord?_eq_iff (h : r.IsConsistent)
    (hb : fitsInt64 r.onHand = true) :
    r.inconsistencyWord? = some none ↔ r.heldWord?.isSome = true := by
  obtain ⟨⟨s1, s2⟩, s3, s4, s5⟩ := (isConsistent_iff r).1 h
  have within : ¬(r.reserved < 0 ∨ r.onHand < r.reserved) := by omega
  have free : subWord? r.onHand r.reserved = some (r.onHand - r.reserved) :=
    subWord?_eq (fitsInt64_of_le (by omega) (by omega) hb)
  have checked : r.inconsistencyWord? =
      r.heldWord? >>= fun held =>
        some (if held ≠ r.reserved then some (.heldMismatch held r.reserved) else none) := by
    rw [inconsistencyWord?, if_neg within, free]
    show (if r.available ≠ max 0 (r.onHand - r.reserved) then _ else _) = _
    rw [if_neg (not_not_intro s3), s4]
    rfl
  rw [checked]
  cases hs : r.heldWord? with
  | none => simp
  | some held =>
    have same : held = r.reserved := (comesTo_held r held hs).trans s5
    exact iff_of_true (congrArg some (if_neg (not_not_intro same))) rfl

theorem Admitted.inconsistencyWord?_eq (h : r.Admitted) (hb : fitsInt64 r.onHand = true) :
    r.inconsistencyWord? = some none := by
  obtain ⟨s1, s2, s3⟩ := h.consistent.covered
  have held := h.orderly.heldWord?_eq (s3 ▸ fitsInt64_of_le s1 s2 hb)
  refine (h.consistent.inconsistencyWord?_eq_iff hb).2 ?_
  rw [held]
  rfl

/-! ## Runs -/

/-- What stays in words: the checks of a record, whatever is asked of it in words, and the checks of
what comes of that. A sum out of range is only ever met in a correction, which is refused for it. -/
structure KeepsToWords (r : StockRecord) : Prop where
  checked : r.inconsistencyWord? = some none
  executed : ∀ c, c.action.InRange → r.executeWord? c = some (r.execute c)
  checkedAfter : ∀ c next es, c.action.InRange → r.execute c = .ok (next, es) →
    next.inconsistencyWord? = some none
  refused : ∀ c, r.execute c = .error (.validation .onHandOverflow) ↔
    ∃ delta reason reference, c.action = .adjust delta reason reference ∧
      r.isCreated = true ∧ delta ≠ 0 ∧ fitsInt64 (r.onHand + delta) = false

theorem Admitted.keepsToWords (h : r.Admitted)
    (hb : fitsInt64 r.onHand = true) : r.KeepsToWords where
  checked := h.inconsistencyWord?_eq hb
  executed c hc := h.executeWord?_eq hb hc.details
  checkedAfter c next es hc he :=
    (h.execute he).inconsistencyWord?_eq (h.onHand_execute hb he hc.details)
  refused c := by
    rw [← eventsFor_eq_overflow_iff, StockRecord.execute]
    cases r.eventsFor c with
    | error e => simp
    | ok es => simp

/-- Whatever commands in words a record is run with, nothing that is calculated on
the way leaves the words. -/
theorem keepsToWords_run (id : RecordId) (sku : SkuCode) {cs : List Command}
    (h : ∀ c ∈ cs, c.action.InRange) :
    (empty id sku).runWord? cs = some ((empty id sku).run cs) ∧
      ((empty id sku).run cs).KeepsToWords := by
  have hc : ∀ c ∈ cs, ∀ details, c.action = .create details → details.InRange :=
    fun c hc => (h c hc).details
  have start := (wellFormed_empty id sku).admitted
  obtain ⟨s1, s2⟩ := start.runWord?_eq rfl hc
  exact ⟨s1, (start.run cs).keepsToWords s2⟩

def dawn : Timestamp := (Timestamp.make? 0 21600 0).get (by decide)

def dusk : Timestamp := (Timestamp.make? 0 64800 0).get (by decide)

/-- As many units as a word can count, all of them held until dusk and then by another hold, and in
between requests at the ends of the range. -/
def brim : List Command :=
  [⟨.create ⟨⟨.ofNat 1⟩, 9223372036854775807, .standard, none, none, none⟩, dawn⟩,
    ⟨.reserve ⟨"first"⟩ 9223372036854775807 none (some dusk), dawn⟩,
    ⟨.release ⟨"first"⟩ (-9223372036854775808) none, dawn⟩,
    ⟨.adjust 9223372036854775807 none none, dawn⟩,
    ⟨.reserve ⟨"second"⟩ 9223372036854775807 none none, dusk⟩]

theorem keepsToWords_run_brim :
    let r := (empty ⟨.ofNat 1⟩ ⟨"BOLT"⟩).run brim
    (∀ c ∈ brim, c.action.InRange) ∧ r.onHand = 9223372036854775807 ∧
      r.reserved = 9223372036854775807 ∧
      (empty ⟨.ofNat 1⟩ ⟨"BOLT"⟩).runWord? brim = some r ∧ r.KeepsToWords := by
  intro r
  have words : ∀ c ∈ brim, c.action.InRange := by
    intro c hc
    simp only [brim, List.mem_cons, List.not_mem_nil, or_false] at hc
    rcases hc with rfl | rfl | rfl | rfl | rfl
    · exact ⟨rfl, rfl, rfl⟩
    all_goals rfl
  have counted : r.onHand = 9223372036854775807 := by decide +kernel
  have held : r.reserved = 9223372036854775807 := by decide +kernel
  exact ⟨words, counted, held, keepsToWords_run ⟨.ofNat 1⟩ ⟨"BOLT"⟩ words⟩

end StockRecord

end Stockroom
