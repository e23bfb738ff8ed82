import Stockroom.Proofs.Movement.Reachability

/-! What a run of commands leaves behind: the commands that were accepted and, in one stream, their
events. The record after the run is the first record with the whole stream applied, and each event
fits the record it is applied to. Two inductions carry later results along a run, one event by event
and one command by command. -/
namespace Stockroom.StockRecord
set_option autoImplicit false

/-- The accepted commands of a list, each with its events. -/
def journal (r : StockRecord) : List Command → List (Command × List Event)
  | [] => []
  | c :: cs =>
    match r.execute c with
    | .ok (next, events) => (c, events) :: next.journal cs
    | .error _ => r.journal cs

def accepted (r : StockRecord) (cs : List Command) : List Command := (r.journal cs).map Prod.fst

def history (r : StockRecord) (cs : List Command) : List Event := (r.journal cs).flatMap Prod.snd

variable {r next : StockRecord} {c : Command} {cs : List Command} {es : List Event}

theorem run_cons_of_ok (h : r.execute c = .ok (next, es)) (cs : List Command) :
    r.run (c :: cs) = next.run cs ∧ r.accepted (c :: cs) = c :: next.accepted cs ∧
      r.history (c :: cs) = es ++ next.history cs := by
  simp [run, accepted, history, journal, h]

theorem run_cons_of_error {e : StockError} (h : r.execute c = .error e) (cs : List Command) :
    r.run (c :: cs) = r.run cs ∧ r.accepted (c :: cs) = r.accepted cs ∧
      r.history (c :: cs) = r.history cs := by
  simp [run, accepted, history, journal, h]

theorem run_append (r : StockRecord) (cs ds : List Command) :
    r.run (cs ++ ds) = (r.run cs).run ds := by
  induction cs generalizing r with
  | nil => rfl
  | cons c cs ih =>
    cases h : r.execute c with
    | error e => simpa [run, h] using ih r
    | ok p => simpa [run, h] using ih p.1

theorem accepted_append (r : StockRecord) (cs ds : List Command) :
    r.accepted (cs ++ ds) = r.accepted cs ++ (r.run cs).accepted ds := by
  induction cs generalizing r with
  | nil => rfl
  | cons c cs ih =>
    unfold accepted at ih
    cases h : r.execute c with
    | error e => simpa [accepted, journal, run, h] using ih r
    | ok p => simpa [accepted, journal, run, h] using ih p.1

theorem accepted_sublist (r : StockRecord) (cs : List Command) : (r.accepted cs).Sublist cs := by
  induction cs generalizing r with
  | nil => exact .slnil
  | cons c cs ih =>
    cases h : r.execute c with
    | error e =>
      rw [(run_cons_of_error h cs).2.1]
      exact (ih r).cons c
    | ok p =>
      rw [(run_cons_of_ok h cs).2.1]
      exact (ih p.1).cons_cons c

/-- None of the commands is refused, when they are run one after the other. -/
def AcceptsAll (r : StockRecord) (cs : List Command) : Prop := r.accepted cs = cs

theorem acceptsAll_cons_iff : r.AcceptsAll (c :: cs) ↔
    ∃ next es, r.execute c = .ok (next, es) ∧ next.AcceptsAll cs := by
  unfold AcceptsAll
  cases h : r.execute c with
  | error e =>
    rw [(run_cons_of_error h cs).2.1]
    refine iff_of_false (fun all => ?_) (by simp)
    have short := (r.accepted_sublist cs).length_le
    rw [all, List.length_cons] at short
    omega
  | ok p =>
    obtain ⟨next, es⟩ := p
    rw [(run_cons_of_ok h cs).2.1]
    simp

theorem AcceptsAll.append {ds : List Command} (h1 : r.AcceptsAll cs)
    (h2 : (r.run cs).AcceptsAll ds) : r.AcceptsAll (cs ++ ds) := by
  unfold AcceptsAll at *
  rw [accepted_append, h1, h2]

theorem run_eq_applyAll (r : StockRecord) (cs : List Command) :
    r.run cs = r.applyAll (r.history cs) := by
  induction cs generalizing r with
  | nil => rfl
  | cons c cs ih =>
    cases h : r.execute c with
    | error e =>
      obtain ⟨h1, -, h2⟩ := run_cons_of_error h cs
      rw [h1, h2]
      exact ih r
    | ok p =>
      obtain ⟨next, es⟩ := p
      obtain ⟨h1, -, h2⟩ := run_cons_of_ok h cs
      obtain ⟨-, h3⟩ := execute_eq_ok_iff.1 h
      rw [h1, h2, applyAll_append, ← h3]
      exact ih next

theorem WellFormed.fitsAll_history (h : r.WellFormed) (cs : List Command) :
    r.FitsAll (r.history cs) := by
  induction cs generalizing r with
  | nil => trivial
  | cons c cs ih =>
    cases he : r.execute c with
    | error e =>
      obtain ⟨-, -, h1⟩ := run_cons_of_error he cs
      rw [h1]
      exact ih h
    | ok p =>
      obtain ⟨next, es⟩ := p
      obtain ⟨-, -, h1⟩ := run_cons_of_ok he cs
      obtain ⟨h2, rfl⟩ := execute_eq_ok_iff.1 he
      rw [h1, fitsAll_append]
      exact ⟨h.fitsAll h2, ih (h.execute he)⟩

/-! ## Induction along a run -/

/-- What every fitting event keeps, said of the events so far and the record they have led to. -/
theorem WellFormed.applyAll_induction {motive : List Event → StockRecord → Prop} {past : List Event}
    (step : ∀ past r e, r.WellFormed → e.change.Fits r → motive past r →
      motive (past ++ [e]) (r.apply e))
    (h : r.WellFormed) (hf : r.FitsAll es) (h0 : motive past r) :
    motive (past ++ es) (r.applyAll es) := by
  induction es generalizing past r with
  | nil =>
    rw [List.append_nil]
    exact h0
  | cons e es ih =>
    have s1 := ih (h.apply hf.1) hf.2 (step past r e h hf.1 h0)
    rw [List.append_assoc, List.singleton_append] at s1
    exact s1

/-- What every accepted command keeps, said of the commands accepted so far and the
record they have led to. -/
theorem WellFormed.run_induction {motive : List Command → StockRecord → Prop} {past : List Command}
    (step : ∀ past r c next es, r.WellFormed → r.execute c = .ok (next, es) → motive past r →
      motive (past ++ [c]) next)
    (h : r.WellFormed) (h0 : motive past r) (cs : List Command) :
    motive (past ++ r.accepted cs) (r.run cs) := by
  induction cs generalizing past r with
  | nil =>
    rw [show r.accepted [] = [] from rfl, List.append_nil]
    exact h0
  | cons c cs ih =>
    cases he : r.execute c with
    | error e =>
      obtain ⟨h1, h2, -⟩ := run_cons_of_error he cs
      rw [h1, h2]
      exact ih h h0
    | ok p =>
      obtain ⟨next, es⟩ := p
      obtain ⟨h1, h2, -⟩ := run_cons_of_ok he cs
      have s1 := ih (h.execute he) (step past r c next es h he h0)
      rw [List.append_assoc, List.singleton_append] at s1
      rw [h1, h2]
      exact s1

end Stockroom.StockRecord
