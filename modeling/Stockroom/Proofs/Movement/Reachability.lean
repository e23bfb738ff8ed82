import Stockroom.Proofs.Movement.Expiry

/-! Reachable records are well-formed. A decision answers with events that fit the record it was
asked about, so every accepted command keeps a record well-formed, and by induction so does
every run of commands. -/
namespace Stockroom.StockRecord
set_option autoImplicit false

variable {r : StockRecord} {es : List Event}

/-! ## Decisions fit -/

theorem IsConsistent.fitsAll_reserve {id : ReservationId} {q : Int} {notes : Option String}
    {expiresAt : Option Timestamp} {now : Timestamp} (h : r.IsConsistent) (hk : r.Keyed)
    (hd : r.decideReserve id q notes expiresAt now = .ok es) : r.FitsAll es := by
  obtain ⟨h0, hc, -, -, hn, hq, rfl⟩ := decideReserve_eq_ok_iff.1 hd
  rw [expiryEvents_eq, fitsAll_append]
  refine ⟨(hk.lapsing_staleHolds now).fitsAll hc now, ⟨?_, h0, ?_, ?_⟩, trivial⟩
  · rw [isCreated_lapses, hc]
  · -- reclaiming lowers the reserved units by just what the decision added to the available ones
    rw [onHand_lapses, reserved_lapses]
    rw [h.available_eq, reclaimable] at hq
    omega
  · exact reservation?_lapses_eq_none hn _ now

/-- It does not take a well-formed record for that, only a consistent one whose reservations are
filed under their own keys. -/
theorem IsConsistent.fitsAll {c : Command} (h : r.IsConsistent) (hk : r.Keyed)
    (hd : r.eventsFor c = .ok es) : r.FitsAll es := by
  obtain ⟨a, now⟩ := c
  cases a with
  | create details =>
    obtain ⟨h1, h2, h3, h4, h5, rfl⟩ := decideCreate_eq_ok_iff.1 hd
    exact ⟨⟨h1, rfl, rfl, h2, h3, h4, h5⟩, trivial⟩
  | reserve id q notes expiresAt => exact h.fitsAll_reserve hk hd
  | release id q reason =>
    obtain ⟨h0, hc, x, hx, hh, hq, -, rfl⟩ := decideRelease_eq_ok_iff.1 hd
    exact ⟨⟨hc, x, hx, hh, h0, hq⟩, trivial⟩
  | consume id q =>
    obtain ⟨h0, hc, x, hx, hh, hq, rfl⟩ := decideConsume_eq_ok_iff.1 hd
    exact ⟨⟨hc, x, hx, hh, h0, hq, rfl⟩, trivial⟩
  | adjust delta reason reference =>
    obtain ⟨hc, h0, h1, ⟨h2, h3⟩, h4, rfl⟩ := decideAdjust_eq_ok_iff.1 hd
    exact ⟨⟨hc, h0, h1, h2, h3, h4⟩, trivial⟩
  | expire =>
    obtain ⟨hc, rfl⟩ := decideExpire_eq_ok_iff.1 hd
    exact (hk.lapsing_staleHolds now).fitsAll hc now
  | deactivate reason =>
    obtain ⟨hc, rfl⟩ := decideDeactivate_eq_ok_iff.1 hd
    split
    · exact ⟨hc, trivial⟩
    · trivial

theorem Admitted.fitsAll {c : Command} (h : r.Admitted)
    (hd : r.eventsFor c = .ok es) : r.FitsAll es :=
  h.consistent.fitsAll h.orderly.keyed hd

theorem WellFormed.fitsAll {c : Command} (h : r.WellFormed)
    (hd : r.eventsFor c = .ok es) : r.FitsAll es :=
  h.admitted.fitsAll hd

/-! ## Creation -/

/-- Only a record that is not created accepts a creation, and only a created one
accepts anything else. -/
theorem isCreated_of_eventsFor {c : Command} (hd : r.eventsFor c = .ok es) :
    r.isCreated = false ↔ ∃ details, c.action = .create details := by
  obtain ⟨a, now⟩ := c
  have other (h : r.isCreated = true) (hn : ¬∃ details, a = .create details) :
      r.isCreated = false ↔ ∃ details, a = .create details := by
    refine iff_of_false (fun h' => ?_) hn
    cases h.symm.trans h'
  cases a with
  | create details => exact iff_of_true (decideCreate_eq_ok_iff.1 hd).1 ⟨details, rfl⟩
  | reserve id q notes expiresAt => exact other (decideReserve_eq_ok_iff.1 hd).2.1 (by simp)
  | release id q reason => exact other (decideRelease_eq_ok_iff.1 hd).2.1 (by simp)
  | consume id q => exact other (decideConsume_eq_ok_iff.1 hd).2.1 (by simp)
  | adjust delta reason reference => exact other (decideAdjust_eq_ok_iff.1 hd).1 (by simp)
  | expire => exact other (decideExpire_eq_ok_iff.1 hd).1 (by simp)
  | deactivate reason => exact other (decideDeactivate_eq_ok_iff.1 hd).1 (by simp)

theorem isCreated_execute {c : Command} {next : StockRecord} (he : r.execute c = .ok (next, es)) :
    next.isCreated = true := by
  obtain ⟨hd, rfl⟩ := execute_eq_ok_iff.1 he
  cases hc : r.isCreated with
  | true => exact isCreated_applyAll hc es
  | false =>
    obtain ⟨a, now⟩ := c
    obtain ⟨details, rfl⟩ := (isCreated_of_eventsFor hd).1 hc
    obtain ⟨-, -, -, -, -, rfl⟩ := decideCreate_eq_ok_iff.1 hd
    rfl

/-! ## Runs -/

theorem Admitted.execute {c : Command} {next : StockRecord} (h : r.Admitted)
    (he : r.execute c = .ok (next, es)) : next.Admitted := by
  obtain ⟨hd, rfl⟩ := execute_eq_ok_iff.1 he
  exact h.applyAll (h.fitsAll hd)

theorem Admitted.run (h : r.Admitted) (cs : List Command) : (r.run cs).Admitted := by
  induction cs generalizing r with
  | nil => exact h
  | cons c cs ih =>
    rw [StockRecord.run]
    cases he : r.execute c with
    | error e => exact ih h
    | ok p => exact ih (h.execute he)

theorem WellFormed.execute {c : Command} {next : StockRecord} (h : r.WellFormed)
    (he : r.execute c = .ok (next, es)) : next.WellFormed := by
  obtain ⟨hd, rfl⟩ := execute_eq_ok_iff.1 he
  exact h.applyAll (h.fitsAll hd)

theorem WellFormed.run (h : r.WellFormed) (cs : List Command) : (r.run cs).WellFormed := by
  induction cs generalizing r with
  | nil => exact h
  | cons c cs ih =>
    rw [StockRecord.run]
    cases he : r.execute c with
    | error e => exact ih h
    | ok p => exact ih (h.execute he)

/-- Whatever commands are given at whatever moments, the record of a unit is well-formed. -/
theorem wellFormed_run_empty (id : RecordId) (sku : SkuCode) (cs : List Command) :
    ((empty id sku).run cs).WellFormed :=
  (wellFormed_empty id sku).run cs

end Stockroom.StockRecord
