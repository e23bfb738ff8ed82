import Stockroom.Proofs.Movement.Conservation
import Stockroom.Proofs.Movement.Words

/-! What consistency is worth as a gate. It looks at the held quantities in their sum only, so a
record can pass whose holds are of more than is reserved, some other one being of less than
nothing; a consumption or a sweep takes such a record beyond the gate. What each command asks of a
consistent record beside its guards is `Bears`; a gate that also wants the reservations in order is
one that no command leads out of. -/
namespace Stockroom.StockRecord
set_option autoImplicit false

variable {r next : StockRecord} {c : Command} {es : List Event}

/-- That the reserved units stay between nothing and the units on hand, where the
guards do not see to it. -/
def Bears (r : StockRecord) (c : Command) : Prop :=
  match c.action with
  | .reserve _ q _ _ => r.reclaimable c.occurredAt ≤ r.reserved + q
  | .consume id _ => r.heldBy id ≤ r.reserved
  | .expire =>
    r.reclaimable c.occurredAt ≤ r.reserved ∧ r.reserved - r.reclaimable c.occurredAt ≤ r.onHand
  | _ => True

/-! ## Consistency after events -/

theorem upToDate_applyAll (h : r.UpToDate) (es : List Event) : (r.applyAll es).UpToDate := by
  induction es generalizing r with
  | nil => exact h
  | cons e es ih => exact ih (upToDate_derive _)

theorem heldTotal_applyAll (h : r.heldTotal = r.reserved) (hc : r.isCreated = true)
    (hf : r.FitsAll es) :
    (r.applyAll es).heldTotal = (r.applyAll es).reserved := by
  induction es generalizing r with
  | nil => exact h
  | cons e es ih =>
    have s1 : (r.apply e).heldTotal = (r.apply e).reserved := heldTotal_change h hc hf.1
    exact ih s1 (isCreated_apply hc e) hf.2

/-- Of what makes a record consistent, fitting events can only break the bounds
of the reserved units. -/
theorem isConsistent_applyAll_iff (h : r.IsConsistent) (hc : r.isCreated = true)
    (hf : r.FitsAll es) :
    (r.applyAll es).IsConsistent ↔
      0 ≤ (r.applyAll es).reserved ∧ (r.applyAll es).reserved ≤ (r.applyAll es).onHand := by
  obtain ⟨s1, s2⟩ := isConsistent_iff_covered.1 h
  rw [isConsistent_iff_covered]
  constructor
  · rintro ⟨⟨h1, h2, -⟩, -⟩
    exact ⟨h1, h2⟩
  · rintro ⟨h1, h2⟩
    exact ⟨⟨h1, h2, heldTotal_applyAll s1.heldTotal_eq hc hf⟩, upToDate_applyAll s2 es⟩

theorem isConsistent_execute_iff (hc : r.isCreated = true) (h : r.IsConsistent) (hk : r.Keyed)
    (he : r.execute c = .ok (next, es)) : next.IsConsistent ↔ r.Bears c := by
  have hu : r.isCreated = false → r.onHand = 0 ∧ r.reserved = 0 := fun h' => by
    cases hc.symm.trans h'
  obtain ⟨s1, s2⟩ := counters_execute hu he
  obtain ⟨hd, rfl⟩ := execute_eq_ok_iff.1 he
  rw [isConsistent_applyAll_iff h hc (h.fitsAll hk hd), s1, s2]
  have s3 := h.covered.reserved_nonneg
  have s4 := h.covered.reserved_le
  obtain ⟨a, now⟩ := c
  cases a with
  | create details => cases hc.symm.trans (decideCreate_eq_ok_iff.1 hd).1
  | reserve id q notes expiresAt =>
    -- the guard bounds the reserved units from above, for consistency ties what is
    -- available to both counters
    obtain ⟨-, -, -, -, -, (hq : q ≤ r.available + r.reclaimable now), -⟩ :=
      decideReserve_eq_ok_iff.1 hd
    have s5 := h.available_eq
    show 0 ≤ r.reserved + (q - r.reclaimable now) ∧
        r.reserved + (q - r.reclaimable now) ≤ r.onHand + 0 ↔
      r.reclaimable now ≤ r.reserved + q
    omega
  | release id q reason =>
    obtain ⟨h0, -, x, -, -, -, hq, -⟩ := decideRelease_eq_ok_iff.1 hd
    have s5 : 0 ≤ r.reserved + -q ∧ r.reserved + -q ≤ r.onHand + 0 := by omega
    exact iff_of_true s5 trivial
  | consume id q =>
    obtain ⟨-, -, x, hx, hh, hq, -⟩ := decideConsume_eq_ok_iff.1 hd
    rw [← heldBy_of_isHeld hx hh] at hq
    show 0 ≤ r.reserved + -r.heldBy id ∧
        r.reserved + -r.heldBy id ≤ r.onHand + -q ↔ r.heldBy id ≤ r.reserved
    omega
  | adjust delta reason reference =>
    obtain ⟨-, -, -, ⟨-, hq⟩, -⟩ := decideAdjust_eq_ok_iff.1 hd
    have s5 : 0 ≤ r.reserved + 0 ∧ r.reserved + 0 ≤ r.onHand + delta := by omega
    exact iff_of_true s5 trivial
  | expire =>
    show 0 ≤ r.reserved + -r.reclaimable now ∧ r.reserved + -r.reclaimable now ≤ r.onHand + 0 ↔
      r.reclaimable now ≤ r.reserved ∧ r.reserved - r.reclaimable now ≤ r.onHand
    omega
  | deactivate reason =>
    have s5 : 0 ≤ r.reserved + 0 ∧ r.reserved + 0 ≤ r.onHand + 0 := by omega
    exact iff_of_true s5 trivial

/-! ## Words -/

/-- Where a command leaves a consistent record, the units on hand are still a word. -/
theorem fitsInt64_onHand_execute (hc : r.isCreated = true) (hb : fitsInt64 r.onHand = true)
    (he : r.execute c = .ok (next, es)) (h : next.IsConsistent) : fitsInt64 next.onHand = true := by
  have hu : r.isCreated = false → r.onHand = 0 ∧ r.reserved = 0 := fun h' => by
    cases hc.symm.trans h'
  obtain ⟨s1, -⟩ := counters_execute hu he
  obtain ⟨s2, s3, -⟩ := h.covered
  have hd := (execute_eq_ok_iff.1 he).1
  obtain ⟨a, now⟩ := c
  cases a with
  | create details => cases hc.symm.trans (decideCreate_eq_ok_iff.1 hd).1
  | adjust delta reason reference =>
    obtain ⟨-, -, fits, -⟩ := decideAdjust_eq_ok_iff.1 hd
    rw [s1]
    exact fits
  | consume id q =>
    obtain ⟨h0, -⟩ := decideConsume_eq_ok_iff.1 hd
    have s4 : next.onHand = r.onHand + -q := s1
    exact fitsInt64_of_le (s2.trans s3) (by omega) hb
  | _ =>
    rw [s1]
    exact (Int.add_zero r.onHand).symm ▸ hb

/-- An accepted command leads to a record that the check in words passes if the record bears it and
the units then held can be added up. -/
theorem inconsistencyWord?_execute_iff (hc : r.isCreated = true) (h : r.IsConsistent) (hk : r.Keyed)
    (hb : fitsInt64 r.onHand = true) (hw : r.executeWord? c = some (.ok (next, es))) :
    next.inconsistencyWord? = some none ↔ r.Bears c ∧ next.heldWord?.isSome = true := by
  have he : r.execute c = .ok (next, es) := (comesTo_execute r c _ hw).symm
  rw [← isConsistent_execute_iff hc h hk he]
  constructor
  · intro checked
    have consistent : next.IsConsistent := (comesTo_inconsistency next _ checked).symm
    have fits := fitsInt64_onHand_execute hc hb he consistent
    exact ⟨consistent, (consistent.inconsistencyWord?_eq_iff fits).1 checked⟩
  · rintro ⟨consistent, held⟩
    have fits := fitsInt64_onHand_execute hc hb he consistent
    exact (consistent.inconsistencyWord?_eq_iff fits).2 held

/-! ## The gate -/

/-- Consistency alone is kept by just those accepted commands that the record bears; together with
reservations in order it is kept by all of them. The same holds in words, with the units on hand in
one: what is added up does not leave them if the reservations are in order, and else the check
passes if it comes to an end. -/
theorem gate_execute (hc : r.isCreated = true) (h : r.IsConsistent) :
    (r.Keyed → ∀ c next es, r.execute c = .ok (next, es) → (next.IsConsistent ↔ r.Bears c)) ∧
      (r.Orderly → ∀ cs, (r.run cs).IsConsistent ∧ (r.run cs).Orderly) ∧
      (fitsInt64 r.onHand = true → r.Keyed → ∀ c next es, r.executeWord? c = some (.ok (next, es)) →
        (next.inconsistencyWord? = some none ↔ r.Bears c ∧ next.heldWord?.isSome = true)) ∧
      (fitsInt64 r.onHand = true → r.Orderly → ∀ cs, (∀ c ∈ cs, c.action.InRange) →
        r.runWord? cs = some (r.run cs) ∧ (r.run cs).KeepsToWords) := by
  have admitted (ho : r.Orderly) : r.Admitted := ⟨h, ho, fun h' => by cases hc.symm.trans h'⟩
  refine ⟨?_, ?_, ?_, ?_⟩
  · intro hk c next es he
    exact isConsistent_execute_iff hc h hk he
  · intro ho cs
    have kept := (admitted ho).run cs
    exact ⟨kept.consistent, kept.orderly⟩
  · intro hb hk c next es hw
    exact inconsistencyWord?_execute_iff hc h hk hb hw
  · intro hb ho cs words
    obtain ⟨s1, s2⟩ := (admitted ho).runWord?_eq hb fun c hm => (words c hm).details
    exact ⟨s1, ((admitted ho).run cs).keepsToWords s2⟩

def afternoon : Timestamp := (Timestamp.make? 0 50400 0).get (by decide)

/-- The record of a created unit with the given holds. -/
def laden (onHand reserved : Int) (holds : List (ReservationId × Int)) : StockRecord :=
  StockRecord.derive { empty ⟨.ofNat 1⟩ ⟨"BOLT"⟩ with
    onHand := onHand
    reserved := reserved
    reservations := .ofList (holds.map fun h => (h.1, .place h.1 h.2 none afternoon none))
    isCreated := true }

theorem gate_execute_laden :
    let r := laden 5 3 [(⟨"first"⟩, 3), (⟨"second"⟩, 0)]
    let cs : List Command := [⟨.consume ⟨"first"⟩ 2, afternoon⟩, ⟨.consume ⟨"second"⟩ 1, afternoon⟩]
    r.isCreated = true ∧ r.IsConsistent ∧ r.Orderly ∧ (r.run cs).onHand = 3 ∧
      (r.run cs).IsConsistent ∧
      r.runWord? cs = some (r.run cs) ∧ (r.run cs).inconsistencyWord? = some none := by
  intro r cs
  have created : r.isCreated = true := rfl
  have consistent : r.IsConsistent := by decide +kernel
  have entries : ∀ e ∈ r.reservations.entries, e.2.id = e.1 ∧ 0 ≤ e.2.heldQuantity := by
    decide +kernel
  have orderly : r.Orderly := fun k x hx => entries (k, x) (KeyMap.get?_eq_some_iff.1 hx)
  have left : (r.run cs).onHand = 3 := by decide +kernel
  have words : ∀ c ∈ cs, c.action.InRange :=
    List.forall_mem_cons.2 ⟨rfl, List.forall_mem_singleton.2 rfl⟩
  obtain ⟨-, s1, -, s2⟩ := gate_execute created consistent
  obtain ⟨same, kept⟩ := s2 rfl orderly cs words
  exact ⟨created, consistent, orderly, left, (s1 orderly cs).1, same, kept.checked⟩

theorem exists_execute_of_counters {onHand reserved : Int}
    (h : (r.execute c).toOption.map (fun p => (p.1.onHand, p.1.reserved)) =
      some (onHand, reserved)) :
    ∃ next es, r.execute c = .ok (next, es) ∧ next.onHand = onHand ∧ next.reserved = reserved := by
  cases he : r.execute c with
  | error e =>
    rw [he] at h
    cases h
  | ok p =>
    rw [he] at h
    cases h
    exact ⟨p.1, p.2, rfl, rfl, rfl⟩

/-- Of five units on hand ten are held in one hold, and less than nothing in another:
the ten can be consumed. -/
theorem not_isConsistent_execute_laden :
    let r := laden 5 5 [(⟨"first"⟩, 10), (⟨"second"⟩, -5)]
    r.isCreated = true ∧ r.IsConsistent ∧ ∃ next es,
      r.execute ⟨.consume ⟨"first"⟩ 10, afternoon⟩ = .ok (next, es) ∧
        next.onHand = -5 ∧ ¬next.IsConsistent := by
  intro r
  have consistent : r.IsConsistent := by decide +kernel
  have counters : (r.execute ⟨.consume ⟨"first"⟩ 10, afternoon⟩).toOption.map
      (fun p => (p.1.onHand, p.1.reserved)) = some (-5, -5) := by decide +kernel
  obtain ⟨next, es, he, h1, h2⟩ := exists_execute_of_counters counters
  refine ⟨rfl, consistent, next, es, he, h1, fun h => ?_⟩
  have s1 := h.covered.reserved_nonneg
  omega

end Stockroom.StockRecord
