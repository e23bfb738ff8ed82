import Stockroom.Ledger.Floor

/-! The course of the operations, gone through once. There are many things to say of a program that
are said of its parts first and put together along its steps; a `Program.Logic` is any way of saying
such a thing. Each structure here lists the questions of one part of an operation, where they are
asked and where their answers lead; what a logic knows of these questions it then knows of that
part, by the theorem that follows the structure. -/
namespace Stockroom
set_option autoImplicit false

namespace Request

/-- Questions for the log, and for the waits between attempts. -/
def IsPassing : Request → Prop
  | .note _ => True
  | .draw _ => True
  | .elapsed => True
  | .wait _ => True
  | _ => False

theorem IsPassing.written? {q : Request} (h : q.IsPassing) (reply : q.Reply) :
    q.written? reply = none := by
  cases q <;> first | rfl | cases h

theorem IsPassing.offers {q : Request} (h : q.IsPassing) : q.offers = [] := by
  cases q <;> first | rfl | cases h

end Request

/-- A way of saying that a program, begun in a state, ends with an answer
and in a state as wanted. -/
structure Program.Logic (σ : Type) where
  Holds : {α : Type} → Program α → σ → (α → σ → Prop) → Prop
  pure : ∀ {α : Type} {a : α} {s : σ} {post : α → σ → Prop}, post a s → Holds (Pure.pure a) s post
  bind : ∀ {α β : Type} {p : Program α} {f : α → Program β} {s : σ} {mid : α → σ → Prop}
    {post : β → σ → Prop},
    Holds p s mid → (∀ a t, mid a t → Holds (f a) t post) → Holds (p >>= f) s post

namespace Program

theorem Logic.mono {σ α : Type} (L : Logic σ) {p : Program α} {s : σ} {mid post : α → σ → Prop}
    (hp : L.Holds p s mid) (h : ∀ a t, mid a t → post a t) : L.Holds p s post := by
  have s1 := L.bind hp fun a t ha => L.pure (h a t ha)
  rw [bind_pure] at s1
  exact s1

variable {α β σ : Type} {answer : (q : Request) → σ → q.Reply × σ} {s : σ}

/-- The run of a program from `s` ends as `post` says. -/
def Leads (answer : (q : Request) → σ → q.Reply × σ) (p : Program α) (s : σ)
    (post : α → σ → Prop) : Prop :=
  post (p.run answer s).1 (p.run answer s).2

theorem Leads.seq {mid : α → σ → Prop} {post : β → σ → Prop} {p : Program α} {f : α → Program β}
    (hp : p.Leads answer s mid) (hf : ∀ a s', mid a s' → (f a).Leads answer s' post) :
    (p >>= f).Leads answer s post := by
  unfold Leads
  rw [run_seq]
  exact hf _ _ hp

theorem Leads.mono {mid post : α → σ → Prop} {p : Program α} (hp : p.Leads answer s mid)
    (h : ∀ a s', mid a s' → post a s') : p.Leads answer s post :=
  h _ _ hp

theorem leads_request_bind {post : β → σ → Prop} {q : Request} {f : q.Reply → Program β} :
    (request q >>= f).Leads answer s post ↔ (f (answer q s).1).Leads answer (answer q s).2 post :=
  Iff.rfl

/-- To lead somewhere is a logic of programs. -/
def leading (answer : (q : Request) → σ → q.Reply × σ) : Logic σ where
  Holds p s post := p.Leads answer s post
  pure h := h
  bind hp hf := hp.seq hf

end Program

namespace Ledger

open Program (Logic request)

variable {σ : Type} {L : Logic σ} {s : σ}

/-- What a question that is passed over leaves as it is. -/
def Passes (L : Logic σ) (stand : σ → Prop) : Prop :=
  ∀ s q, stand s → Request.IsPassing q → L.Holds (request q) s fun _ t => stand t

theorem Passes.note {stand : σ → Prop} {α : Type} {post : α → σ → Prop} {f : Unit → Program α}
    (h : Passes L stand) (hs : stand s) (entry : LogEntry)
    (hf : ∀ t, stand t → L.Holds (f ()) t post) :
    L.Holds (Program.note entry >>= f) s post :=
  L.bind (h s (.note entry) hs trivial) fun _ => hf

/-! ## Attempts -/

section Attempts

variable {sku : SkuCode} {command : Timestamp → Except StockError Command} {ready : σ → Prop}
  {tried : Except LedgerError Commit → σ → Prop}

/-- Where an attempt stands once its load has been answered. -/
def afterLoad (sku : SkuCode) (loaded : StockRecord → σ → Prop)
    (tried : Except LedgerError Commit → σ → Prop) :
    Except StoreError (Option StockRecord) → σ → Prop
  | .error e => tried (.error (.ofStore e))
  | .ok none => tried (.error (.stock (.notFound sku)))
  | .ok (some current) => loaded current

/-- What a write makes of the events that led to it. -/
def stored (events : List Event) : Except StoreError StockRecord → Except LedgerError Commit
  | .error e => .error (.ofStore e)
  | .ok record => .ok ⟨record, events⟩

/-- An attempt: where it stands with a record, where with a reading of the clock besides, and where
each of its questions and each of its exits leads. -/
structure Attempts (L : Logic σ) (sku : SkuCode) (command : Timestamp → Except StockError Command)
    (ready : σ → Prop) (tried : Except LedgerError Commit → σ → Prop) where
  loaded : StockRecord → σ → Prop
  timed : StockRecord → Timestamp → σ → Prop
  load : ∀ s, ready s → L.Holds (Program.load sku) s (afterLoad sku loaded tried)
  clock : ∀ s current, loaded current s → L.Holds Program.clock s (timed current)
  undecided : ∀ s current now e, timed current now s → command now = .error e →
    tried (.error (.stock e)) s
  refused : ∀ s current now c e, timed current now s → command now = .ok c →
    current.execute c = .error e → tried (.error (.stock e)) s
  idle : ∀ s current now c next, timed current now s → command now = .ok c →
    current.execute c = .ok (next, []) → tried (.ok ⟨current, []⟩) s
  swap : ∀ s current now c candidate events, timed current now s → command now = .ok c →
    current.execute c = .ok (candidate, events) → events ≠ [] →
    L.Holds (Program.swap candidate (.exactly current.version)) s fun reply =>
      tried (stored events reply)
  passes : ∀ result, Passes L (tried result)

theorem Attempts.holds (h : Attempts L sku command ready tried) (number : Nat) (hs : ready s) :
    L.Holds (attempt sku command number) s tried := by
  unfold attempt
  refine L.bind (h.load s hs) fun reply s hs => ?_
  match reply with
  | .error e => exact L.pure hs
  | .ok none => exact L.pure hs
  | .ok (some current) =>
    refine L.bind (h.clock s current hs) fun now s hs => ?_
    dsimp only
    cases hc : command now with
    | error e => exact L.pure (h.undecided s current now e hs hc)
    | ok c =>
      dsimp only
      cases he : current.execute c with
      | error e => exact L.pure (h.refused s current now c e hs hc he)
      | ok p =>
        obtain ⟨candidate, events⟩ := p
        cases events with
        | nil => exact L.pure (h.idle s current now c candidate hs hc he)
        | cons event events =>
          refine L.bind (h.swap s current now c candidate _ hs hc he (List.cons_ne_nil _ _))
            fun reply s hs => ?_
          match reply with
          | .error e =>
            dsimp only
            split
            · exact (h.passes _).note hs _ fun t ht => L.pure ht
            · exact L.pure hs
          | .ok record => exact (h.passes _).note hs _ fun t ht => L.pure ht

end Attempts

/-! ## Retries -/

section Retries

variable {ε α : Type} {policy : RetryPolicy} {operation : Nat → Program (Except ε α)}
  {isRetryable : ε → Bool} {last n : Nat} {ready : Nat → σ → Prop}
  {tried : Nat → Except ε α → σ → Prop} {ended : Except (Retry.Failure ε) α → σ → Prop}

/-- A run of attempts up to a last one: where each of them leads, and where the run
does that ends with it. -/
structure Retries (L : Logic σ) (policy : RetryPolicy) (operation : Nat → Program (Except ε α))
    (isRetryable : ε → Bool) (last : Nat) (ready : Nat → σ → Prop)
    (tried : Nat → Except ε α → σ → Prop)
    (ended : Except (Retry.Failure ε) α → σ → Prop) : Prop where
  attempt : ∀ n s, ready n s → L.Holds (operation n) s (tried n)
  passes : ∀ n result, Passes L (tried n result)
  succeeded : ∀ n a s, tried n (.ok a) s → ended (.ok a) s
  failed : ∀ n e s, tried n (.error e) s → isRetryable e = false → ended (.error (.fatal e)) s
  spent : ∀ n e s, tried n (.error e) s → isRetryable e = true →
    n = last ∨ policy.deadline.isSome = true → ended (.error (.exhausted n e)) s
  again : ∀ n e s, tried n (.error e) s → isRetryable e = true → n < last → ready (n + 1) s

theorem Passes.reachesDeadline {stand : σ → Prop} (h : Passes L stand) (hs : stand s)
    (policy : RetryPolicy) (wait : Nat) :
    L.Holds (Retry.reachesDeadline surroundings policy wait) s fun reached t =>
      stand t ∧ (reached = true → policy.deadline.isSome = true) := by
  unfold Retry.reachesDeadline
  cases policy.deadline with
  | none => exact L.pure ⟨hs, fun reached => absurd reached Bool.false_ne_true⟩
  | some d => exact L.bind (h s .elapsed hs trivial) fun _ t ht => L.pure ⟨ht, fun _ => rfl⟩

theorem Retries.holds (h : Retries L policy operation isRetryable last ready tried ended)
    {left : Nat} (hn : n + left = last) (hs : ready n s) :
    L.Holds (Retry.runFrom surroundings policy operation isRetryable left n) s ended := by
  induction left using Nat.strongRecOn generalizing n s with
  | _ left ih =>
    rw [Retry.runFrom]
    refine L.bind (h.attempt n s hs) fun result s hs => ?_
    have passes := h.passes n result
    cases result with
    | ok a =>
      dsimp only
      split
      · exact passes.note hs _ fun t ht => L.pure (h.succeeded n a t ht)
      · exact L.pure (h.succeeded n a s hs)
    | error e =>
      dsimp only
      cases he : isRetryable e with
      | false => exact L.pure (h.failed n e s hs he)
      | true =>
        cases left with
        | zero => exact L.pure (h.spent n e s hs he (.inl hn))
        | succ left =>
          refine L.bind (passes s (.draw _) hs trivial) fun wait s hs => ?_
          refine L.bind (passes.reachesDeadline hs policy _) ?_
          rintro reached s ⟨hs, late⟩
          cases reached with
          | true => exact L.pure (h.spent n e s hs he (.inr (late rfl)))
          | false =>
            refine passes.note hs _ fun s hs =>
              L.bind (passes s (.wait _) hs trivial) fun _ s hs => ?_
            exact ih left (Nat.lt_succ_self left) (by omega) (h.again n e s hs he (by omega))

theorem Retries.run (h : Retries L policy operation isRetryable policy.attempts ready tried ended)
    (hs : ready 1 s) :
    L.Holds (Retry.run surroundings policy operation isRetryable) s ended := by
  have positive : 1 ≤ policy.attempts := Nat.le_max_right _ _
  exact h.holds (by omega) hs

end Retries

/-! ## Publication -/

section Publication

variable {record : StockRecord} {owing : List Event → σ → Prop}

theorem holds_publishAll (owing : List Event → σ → Prop)
    (h : ∀ s event events, owing (event :: events) s →
      L.Holds (publish record event) s fun _ t => owing events t)
    (events : List Event) (hs : owing events s) :
    L.Holds (publishAll record events) s fun _ t => owing [] t := by
  induction events generalizing s with
  | nil => exact L.pure hs
  | cons event events ih => exact L.bind (h s event events hs) fun _ t => ih

/-- A publication: where it stands while events are owed, and where with an
identifier for the next message. -/
structure Publishes (L : Logic σ) (record : StockRecord) (owing : List Event → σ → Prop) where
  naming : Event → List Event → Uuid → σ → Prop
  name : ∀ s event events, owing (event :: events) s →
    L.Holds Program.freshId s (naming event events)
  offer : ∀ s event events id, naming event events id s →
    L.Holds (Program.publish (.about id record event)) s fun _ t => owing events t
  passes : ∀ events, Passes L (owing events)

theorem Publishes.holds (h : Publishes L record owing) (events : List Event) (hs : owing events s) :
    L.Holds (publishAll record events) s fun _ t => owing [] t := by
  refine holds_publishAll owing (fun s event events hs => ?_) events hs
  unfold publish
  refine L.bind (h.name s event events hs) fun id s hs => ?_
  refine L.bind (h.offer s event events id hs) fun said s hs => ?_
  cases said with
  | none => exact L.pure hs
  | some failure => exact h.passes events s (.note _) hs trivial

end Publication

/-! ## Writes -/

variable {config : LedgerConfig} {closed : Except LedgerError Commit → σ → Prop}

/-- A commit, by how its attempts end. -/
structure Closes (L : Logic σ) (sku : SkuCode)
    (ended : Except (Retry.Failure LedgerError) Commit → σ → Prop)
    (closed : Except LedgerError Commit → σ → Prop) : Prop where
  told : ∀ s c, ended (.ok c) s →
    L.Holds (publishAll c.record c.events) s fun _ t => closed (.ok c) t
  failed : ∀ s e, ended (.error (.fatal e)) s → closed (.error e) s
  spent : ∀ s attempts e, ended (.error (.exhausted attempts e)) s →
    closed (.error (.concurrencyConflict sku attempts)) s
  passes : ∀ e, Passes L (closed (.error e))

theorem Closes.holds {sku : SkuCode} {command : Timestamp → Except StockError Command}
    {ended : Except (Retry.Failure LedgerError) Commit → σ → Prop} (h : Closes L sku ended closed)
    (hr : L.Holds
      (Retry.run surroundings config.retry (attempt sku command) LedgerError.isRetryable) s ended) :
    L.Holds (commit config sku command) s closed := by
  unfold commit
  refine L.bind hr fun result s hs => ?_
  match result with
  | .ok c => exact L.bind (h.told s c hs) fun _ t ht => L.pure ht
  | .error (.fatal e) => exact L.pure (h.failed s e hs)
  | .error (.exhausted attempts e) =>
    exact (h.passes _).note (h.spent s attempts e hs) _ fun t ht => L.pure ht

/-- A registration: where it stands with an identifier, where with a reading of the clock
besides, and where it leads. -/
structure Registers (L : Logic σ) (config : LedgerConfig) (item : NewItem) (ready : σ → Prop)
    (entered : Commit → σ → Prop) (closed : Except LedgerError Commit → σ → Prop) where
  minted : Uuid → σ → Prop
  timed : Uuid → Timestamp → σ → Prop
  mint : ∀ s, ready s → L.Holds Program.freshId s minted
  clock : ∀ s id, minted id s → L.Holds Program.clock s (timed id)
  refused : ∀ s id now e, timed id now s →
    (StockRecord.empty ⟨id⟩ item.sku).execute ⟨.create (item.details config), now⟩ = .error e →
      closed (.error (.stock e)) s
  insert : ∀ s id now candidate events, timed id now s →
    (StockRecord.empty ⟨id⟩ item.sku).execute ⟨.create (item.details config), now⟩ =
      .ok (candidate, events) →
    L.Holds (Program.insert candidate) s fun
      | .error e => closed (.error (.ofStore e))
      | .ok record => entered ⟨record, events⟩
  passes : ∀ c, Passes L (entered c)
  told : ∀ s c, entered c s → L.Holds (publishAll c.record c.events) s fun _ t => closed (.ok c) t

theorem Registers.holds {item : NewItem} {ready : σ → Prop} {entered : Commit → σ → Prop}
    (h : Registers L config item ready entered closed) (hs : ready s) :
    L.Holds (register config item) s closed := by
  unfold register
  refine L.bind (h.mint s hs) fun id s hs => L.bind (h.clock s id hs) fun now s hs => ?_
  cases he : (StockRecord.empty ⟨id⟩ item.sku).execute ⟨.create (item.details config), now⟩ with
  | error e => exact L.pure (h.refused s id now e hs he)
  | ok p =>
    obtain ⟨candidate, events⟩ := p
    refine L.bind (h.insert s id now candidate events hs he) fun reply s hs => ?_
    match reply with
    | .error e => exact L.pure hs
    | .ok record =>
      refine (h.passes ⟨record, events⟩).note hs _ fun s hs => ?_
      exact L.bind (h.told s ⟨record, events⟩ hs) fun _ t ht => L.pure ht

theorem holds_settle {task : Task}
    (hr : ∀ item, task = .create item → L.Holds (register config item) s closed)
    (hc : L.Holds (commit config task.sku fun now => task.command config now) s closed)
    (refused : closed (.error (.stock (.validation .ttlOutOfRange))) s) :
    L.Holds (task.settle config) s closed := by
  unfold Task.settle
  split
  · exact hr _ rfl
  · split
    · exact hc
    · exact L.pure refused

end Ledger

end Stockroom
