import Stockroom.Ledger.Task
import Stockroom.Proofs.Ledger.Discipline
import Stockroom.Proofs.Movement.Decision

/-! The operations keep to the discipline: an attempt makes at most one write, which is decided on
the record it has loaded at the reading of the clock it has taken, retries begin only after attempts
that wrote nothing, and publication pays off what a commit owes, event by event. -/
namespace Stockroom.Ledger
set_option autoImplicit false

open Program (Obeys obedience obeys_request_bind)

variable {m : Mandate} {made : List Commit} {config : LedgerConfig}

/-! ## Asides -/

theorem obeys_aside {α : Type} {post : α → Progress → Prop} {q : Request} {f : q.Reply → Program α}
    {p : Progress} (h : Request.IsAside q) (hf : ∀ reply, (f reply).Obeys (Move m) post p) :
    (Program.request q >>= f).Obeys (Move m) post p :=
  fun reply => ⟨p, .aside h, hf reply⟩

theorem obeys_note {α : Type} {post : α → Progress → Prop} {entry : LogEntry} {f : Unit → Program α}
    {p : Progress} (hf : (f ()).Obeys (Move m) post p) :
    (Program.note entry >>= f).Obeys (Move m) post p :=
  obeys_aside trivial fun _ => hf

theorem passes_obedience (stand : Progress → Prop) : Passes (obedience (Move m)) stand :=
  fun p _ hp hq _ => ⟨p, .aside (isAside_of_isPassing hq), hp⟩

/-! ## Commits -/

section Commits

variable {sku : SkuCode} {command : Timestamp → Except StockError Command}

def attempts_obedience (hs : m.covers sku) (hc : ∀ now c, command now = .ok c → m.orders now c) :
    Attempts (obedience (Move m)) sku command (fun p => p.stand.IsFree ∧ p.made = made)
      (Outcome m made Commit.events) where
  loaded current p := p = ⟨.based (.stored sku current), made⟩
  timed current now p := p = ⟨.timed (.stored sku current) now, made⟩
  load := by
    rintro p ⟨hp, rfl⟩ reply
    match reply with
    | .error e => exact ⟨_, .missed hp, rfl, trivial⟩
    | .ok none => exact ⟨_, .missed hp, rfl, trivial⟩
    | .ok (some current) => exact ⟨_, .found hp hs, rfl⟩
  clock := by
    rintro _ current rfl now
    exact ⟨_, .timed, rfl⟩
  undecided := by
    rintro _ current now e rfl -
    exact ⟨rfl, trivial⟩
  refused := by
    rintro _ current now c e rfl - -
    exact ⟨rfl, trivial⟩
  idle := by
    rintro _ current now c next rfl hn he
    obtain ⟨-, rfl⟩ := StockRecord.execute_eq_ok_iff.1 he
    exact .inl ⟨rfl, rfl, sku, now, c, hs, hc now c hn, rfl, he⟩
  swap := by
    rintro _ current now c candidate events rfl hn he ne reply
    cases reply with
    | error e => exact ⟨_, .notSwapped, rfl, trivial⟩
    | ok record => exact ⟨_, .swapped ⟨c, hc now c hn, he, ne⟩, .inr ⟨ne, rfl, rfl⟩⟩
  passes _ := passes_obedience _

def publishes_obedience (record : StockRecord) :
    Publishes (obedience (Move m)) record fun events p => p = ⟨.owing record events, made⟩ where
  naming event events id p := p = ⟨.naming record (event :: events) id, made⟩
  name := by
    rintro _ event events rfl id
    exact ⟨_, .named, rfl⟩
  offer := by
    rintro _ event events id rfl said
    exact ⟨_, .offered, rfl⟩
  passes _ := passes_obedience _

theorem Outcome.obeys_publishAll {c : Commit} {p : Progress}
    (h : Outcome m made Commit.events (ε := LedgerError) (.ok c) p) :
    (publishAll c.record c.events).Obeys (Move m)
      (fun _ p' => Outcome m made (fun _ => []) (ε := LedgerError) (.ok c) p') p := by
  obtain ⟨h1, h2, h3⟩ | ⟨h1, h2, h3⟩ := h
  · rw [h1]
    exact .inl ⟨h1, h2, h3⟩
  · obtain ⟨stand, made'⟩ := p
    cases h2
    cases h3
    refine ((publishes_obedience c.record).holds c.events rfl).mono ?_
    rintro _ p' rfl
    exact .inr ⟨h1, rfl, rfl⟩

theorem obeys_commit {p : Progress} (hp : p.stand.IsFree) (hm : p.made = made) (hs : m.covers sku)
    (hc : ∀ now c, command now = .ok c → m.orders now c) :
    (commit config sku command).Obeys (Move m) (Outcome m made fun _ => []) p := by
  have retries : Retries (obedience (Move m)) config.retry (attempt sku command)
      LedgerError.isRetryable config.retry.attempts (fun _ p => p.stand.IsFree ∧ p.made = made)
      (fun _ => Outcome m made Commit.events) (Outcome m made Commit.events) :=
    { attempt := fun n _ hr => (attempts_obedience hs hc).holds n hr
      passes := fun _ _ => passes_obedience _
      succeeded := fun _ _ _ hr => hr
      failed := fun _ _ _ hr _ => hr
      spent := fun _ _ _ hr _ _ => hr
      again := fun _ _ _ hr _ _ => ⟨hr.2, hr.1⟩ }
  have closes : Closes (obedience (Move m)) sku (Outcome m made Commit.events)
      (Outcome m made fun _ => []) :=
    { told := fun _ _ hr => hr.obeys_publishAll
      failed := fun _ _ hr => hr
      spent := fun _ _ _ hr => hr
      passes := fun _ => passes_obedience _ }
  exact closes.holds (retries.run ⟨hp, hm⟩)

end Commits

/-! ## Operations -/

def registers_obedience {item : NewItem} (hs : m.covers item.sku)
    (hc : ∀ now, m.orders now ⟨.create (item.details config), now⟩) :
    Registers (obedience (Move m)) config item (fun p => p.stand.IsFree ∧ p.made = made)
      (fun c => Outcome m made Commit.events (ε := LedgerError) (.ok c))
      (Outcome m made fun _ => []) where
  minted id p := p = ⟨.based (.fresh id item.sku), made⟩
  timed id now p := p = ⟨.timed (.fresh id item.sku) now, made⟩
  mint := by
    rintro p ⟨hp, rfl⟩ id
    exact ⟨_, .minted hp hs, rfl⟩
  clock := by
    rintro _ id rfl now
    exact ⟨_, .timed, rfl⟩
  refused := by
    rintro _ id now e rfl -
    exact ⟨rfl, trivial⟩
  insert := by
    rintro _ id now candidate events rfl he reply
    cases reply with
    | error e => exact ⟨_, .notInserted, rfl, trivial⟩
    | ok record =>
      have ne : events ≠ [] := by
        obtain ⟨hd, -⟩ := StockRecord.execute_eq_ok_iff.1 he
        obtain ⟨-, -, -, -, -, rfl⟩ := StockRecord.decideCreate_eq_ok_iff.1 hd
        exact List.cons_ne_nil _ _
      exact ⟨_, .inserted ⟨_, hc now, he, ne⟩, .inr ⟨ne, rfl, rfl⟩⟩
  passes _ := passes_obedience _
  told _ _ hr := hr.obeys_publishAll

theorem Task.creates_iff {config : LedgerConfig} {task : Task} {now : Timestamp} {command : Command}
    (h : task.command config now = .ok command) :
    (∃ details, command.action = .create details) ↔ ∃ item, task = .create item := by
  cases task with
  | create item =>
    cases h
    exact iff_of_true ⟨_, rfl⟩ ⟨item, rfl⟩
  | reserve sku q id notes =>
    unfold Task.command at h
    cases hx : expiry config.reservationTtl now with
    | error e =>
      rw [hx] at h
      cases h
    | ok expiresAt =>
      rw [hx] at h
      cases h
      simp
  | _ =>
    cases h
    simp

/-- A task may write its own unit, by the command it builds. -/
def Task.mandate (config : LedgerConfig) (t : Task) : Mandate where
  covers sku := sku = t.sku
  orders now c := t.command config now = .ok c

def Job.mandate (j : Job) : Mandate := j.task.mandate j.config

theorem obeys_settle (config : LedgerConfig) (t : Task) :
    (t.settle config).Obeys (Move (t.mandate config))
      (Outcome (t.mandate config) [] fun _ => []) ⟨.free, []⟩ := by
  refine holds_settle (L := obedience (Move (t.mandate config))) ?_ ?_ ⟨rfl, trivial⟩
  · rintro item rfl
    exact (registers_obedience rfl fun now => rfl).holds ⟨trivial, rfl⟩
  · exact obeys_commit trivial rfl rfl fun now c h => h

theorem Job.obeys_settle (j : Job) :
    j.settle.Obeys (Move j.mandate) (Outcome j.mandate [] fun _ => []) ⟨.free, []⟩ :=
  Ledger.obeys_settle j.config j.task

/-! ## Calls -/

theorem Outcome.isFree {r : Except LedgerError Commit} {p : Progress}
    (h : Outcome m made (fun _ => []) r p) : p.stand.IsFree := by
  cases r with
  | error e => exact h.2
  | ok c =>
    obtain ⟨-, -, sku, now, command, -, -, h, -⟩ | ⟨-, -, h⟩ := h
    · rw [h]
      exact trivial
    · rw [h]
      exact rfl

theorem obeys_discard {α : Type} {p : Program α} {s : Progress}
    (h : p.Obeys (Move m) (fun _ s' => s'.stand.IsFree) s) :
    (Functor.discard p).Obeys (Move m) (fun _ s' => s'.stand.IsFree) s :=
  h.bind fun _ _ hp => hp

theorem obeys_get {sku : SkuCode} {p : Progress} (hp : p.stand.IsFree) (hs : m.covers sku) :
    (get sku).Obeys (Move m) (fun _ p' => p'.stand.IsFree) p := by
  unfold get
  refine obeys_request_bind.2 fun reply => ?_
  match reply with
  | .error e => exact ⟨_, .missed hp, trivial⟩
  | .ok none => exact ⟨_, .missed hp, trivial⟩
  | .ok (some record) => exact ⟨_, .found hp hs, trivial⟩

theorem obeys_sweep {config : LedgerConfig} {now : Timestamp} {released : Nat}
    {records : List StockRecord} {p : Progress} (hp : p.stand.IsFree) (hs : ∀ sku, m.covers sku)
    (hc : ∀ now, m.orders now ⟨.expire, now⟩) :
    (sweep config now released records).Obeys (Move m) (fun _ p' => p'.stand.IsFree) p := by
  induction records generalizing released p with
  | nil => exact hp
  | cons record rest ih =>
    unfold sweep
    split
    · exact ih hp
    · have s1 : (commit config record.sku fun now => .ok ⟨.expire, now⟩).Obeys (Move m)
          (fun _ p' => p'.stand.IsFree) p :=
        (obeys_commit hp rfl (hs _) fun now c h => Except.ok.inj h ▸ hc now).mono fun r p' h =>
          h.isFree
      refine s1.bind fun result p' hp' => ?_
      match result with
      | .ok committed => exact ih hp'
      | .error (.concurrencyConflict sku attempts) => exact obeys_note (ih hp')
      | .error (.stock e) => exact hp'
      | .error (.store e) => exact hp'

theorem obeys_expireAll {config : LedgerConfig} (hs : ∀ sku, m.covers sku)
    (hc : ∀ now, m.orders now ⟨.expire, now⟩) :
    (expireAll config).Obeys (Move m) (fun _ p' => p'.stand.IsFree) ⟨.free, []⟩ := by
  unfold expireAll
  refine obeys_request_bind.2 fun now => ⟨_, .looked, obeys_aside trivial fun reply => ?_⟩
  match reply with
  | .error e => exact trivial
  | .ok records =>
    refine (obeys_sweep (p := ⟨.free, []⟩) trivial hs hc).bind fun result p' hp' => ?_
    cases result with
    | error e => exact hp'
    | ok released =>
      dsimp only
      split
      · exact obeys_note hp'
      · exact hp'

/-- A task has its own mandate, a sweep may expire holds anywhere, and to read is free. -/
def Call.mandate (config : LedgerConfig) : Call → Mandate
  | .perform task => task.mandate config
  | .expireAll => ⟨fun _ => True, fun now c => c = ⟨.expire, now⟩⟩
  | _ => ⟨fun _ => True, fun _ _ => False⟩

def Errand.mandate (e : Errand) : Mandate := e.call.mandate e.config

theorem obeys_call (config : LedgerConfig) (c : Call) :
    (c.program config).Obeys (Move (c.mandate config)) (fun _ p => p.stand.IsFree) ⟨.free, []⟩ := by
  cases c with
  | perform task =>
    refine obeys_discard ?_
    rw [Task.program_eq]
    exact (obeys_settle config task).bind fun r p' h => h.isFree
  | expireAll => exact obeys_discard (obeys_expireAll (fun _ => trivial) fun _ => rfl)
  | get sku => exact obeys_discard (obeys_get (p := ⟨.free, []⟩) trivial trivial)
  | status sku =>
    exact obeys_discard ((obeys_get (p := ⟨.free, []⟩) trivial trivial).bind fun r p' h => h)
  | lowStock =>
    refine obeys_discard (obeys_aside trivial fun reply => ?_)
    cases reply <;> exact trivial
  | reservation sku id =>
    refine obeys_discard ((obeys_get (p := ⟨.free, []⟩) trivial trivial).bind fun r p' h => ?_)
    cases r with
    | error e => exact h
    | ok record =>
      dsimp only
      split <;> exact h

theorem Errand.obeys_program (e : Errand) :
    e.program.Obeys (Move e.mandate) (fun _ p => p.stand.IsFree) ⟨.free, []⟩ :=
  obeys_call e.config e.call

end Stockroom.Ledger
