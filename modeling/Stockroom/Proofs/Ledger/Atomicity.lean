import Stockroom.Ledger.Solo
import Stockroom.Proofs.Ledger.Conduct
import Stockroom.Proofs.Ledger.Tracking
import Stockroom.Proofs.Movement.Reachability

/-! A task that runs alone does all of its work or none. Until its one commit the store is as it was
and nobody has been told; from then on the record is stored, and the messages handed to the bus tell
of its events in their order. What the bus answers makes no difference. -/
namespace Stockroom.Ledger
set_option autoImplicit false

open Program (Logic Obeys)

/-! ## Before and after the commit -/

/-- A basis of a decision that the world and the store bear out. -/
def Basis.Rests (m : Mandate) (w : World) (s : Store) : Basis → Prop
  | .fresh id sku => m.covers sku ∧ w.Mints id
  | .stored sku record => m.covers sku ∧ s.load sku = some record

def Stand.Rests (m : Mandate) (w : World) (s : Store) : Stand → Prop
  | .free => True
  | .based b => b.Rests m w s
  | .timed b now => b.Rests m w s ∧ w.Reads now
  | .owing .. => False
  | .naming .. => False

/-- What the writing thread had been told is what the world says. -/
structure Write.Hears (w : World) (x : Write) : Prop where
  clock : ∀ now ∈ x.clock, w.Reads now
  minted : ∀ id ∈ x.minted, w.Mints id

/-- A commit that goes on from what a store holds, at a reading of the clock. -/
def Commits (m : Mandate) (w : World) (s : Store) (c : Commit) : Prop :=
  m.covers c.record.sku ∧ ∃ x : Write, x.record = c.record ∧ x.Hears w ∧
    x.Continues (fun _ => m.orders) (s.load c.record.sku) c.events

/-- Where a program stands that has made at most one commit to the store `s`, and what
it has done meanwhile. -/
structure Agrees (m : Mandate) (w : World) (s : Store) (p : Progress) (t : Solo) : Prop where
  idle : p.made = [] → t.store = s ∧ t.offered = [] ∧ p.stand.Rests m w s
  done : ∀ c, p.made = [c] → Commits m w s c ∧ t.store = s.put c.record ∧ Told t.offered c p.stand ∧
    ∀ r, p.stand.pending r ≠ [] → r = c.record

variable {m : Mandate} {s : Store} {p p' : Progress} {t t' : Solo} {w : World} {q : Request}

namespace Agrees

/-- A question that changes neither the store nor what is owed. -/
theorem stay (h : Agrees m w s p t) (hm : p'.made = p.made) (hs : t'.store = t.store)
    (ho : t'.offered = t.offered) (hr : t.store = s → p.stand.Rests m w s → p'.stand.Rests m w s)
    (hp : ∀ r, p'.stand.pending r = p.stand.pending r) : Agrees m w s p' t' where
  idle he := by
    obtain ⟨h1, h2, h3⟩ := h.idle (hm.symm.trans he)
    exact ⟨hs.trans h1, ho.trans h2, hr h1 h3⟩
  done c he := by
    obtain ⟨h1, h2, h3, h4⟩ := h.done c (hm.symm.trans he)
    refine ⟨h1, hs.trans h2, ho ▸ h3.congr (hp _), fun r hr => h4 r ?_⟩
    rw [← hp r]
    exact hr

/-- The first commit of the program, or one more than are accounted for. -/
theorem commit {c : Commit} {stand : Stand} {made : List Commit} (h : Agrees m w s ⟨stand, made⟩ t)
    (hc : made = [] → Commits m w s c ∧ t'.store = s.put c.record) (ho : t'.offered = t.offered) :
    Agrees m w s ⟨.owing c.record c.events, made ++ [c]⟩ t' where
  idle he := absurd he (by simp)
  done d he := by
    have hm : made = [] := by simpa using congrArg List.length he
    subst hm
    cases he
    obtain ⟨-, h2, -⟩ := h.idle rfl
    obtain ⟨h3, h4⟩ := hc rfl
    refine ⟨h3, h4, ?_, fun r hr => ?_⟩
    · rw [ho, h2]
      exact told_nil (if_pos rfl)
    · by_contra hne
      exact hr (if_neg (Ne.symm hne))

/-- A message about the next event that is owed. -/
theorem offer {record : StockRecord} {event : Event} {events : List Event} {id : Uuid}
    {made : List Commit} (h : Agrees m w s ⟨.naming record (event :: events) id, made⟩ t)
    (hs : t'.store = t.store) (ho : t'.offered = t.offered ++ [.about id record event]) :
    Agrees m w s ⟨.owing record events, made⟩ t' where
  idle he := (h.idle he).2.2.elim
  done c he := by
    obtain ⟨h1, h2, h3, h4⟩ := h.done c he
    have hc : record = c.record := h4 record (by simp [Stand.pending])
    subst hc
    refine ⟨h1, hs.trans h2, ho ▸ h3.offer, fun r hr => ?_⟩
    by_contra hne
    exact hr (if_neg (Ne.symm hne))

theorem insert {id : Uuid} {sku : SkuCode} {now : Timestamp} {made : List Commit}
    {candidate record : StockRecord} {events : List Event} {store : Store}
    (h : Agrees m w s ⟨.timed (.fresh id sku) now, made⟩ t)
    (hd : m.Decides (.fresh id sku) now candidate events)
    (hi : t.store.insert candidate = .ok (record, store)) (hs : t'.store = store)
    (ho : t'.offered = t.offered) :
    Agrees m w s ⟨.owing record events, made ++ [⟨record, events⟩]⟩ t' := by
  refine h.commit (c := ⟨record, events⟩) (fun hm => ?_) ho
  obtain ⟨h1, -, ⟨hc, mints⟩, reads⟩ := h.idle hm
  rw [h1] at hi
  obtain ⟨hl, hk, -, he⟩ :=
    continues_insert (m := fun _ => m) (w := ⟨0, record, some now, some id⟩) hd rfl rfl hi
  have hears : Write.Hears w ⟨0, record, some now, some id⟩ :=
    ⟨by rintro _ ⟨⟩; exact reads, by rintro _ ⟨⟩; exact mints⟩
  exact ⟨⟨hk ▸ hc, _, rfl, hears, hl⟩, hs.trans he⟩

theorem swap {sku : SkuCode} {current : StockRecord} {now : Timestamp} {made : List Commit}
    {candidate record : StockRecord} {events : List Event} {store : Store}
    (keyed : ∀ sku r, s.load sku = some r → r.sku = sku)
    (h : Agrees m w s ⟨.timed (.stored sku current) now, made⟩ t)
    (hd : m.Decides (.stored sku current) now candidate events)
    (hi : t.store.swap candidate (.exactly current.version) = .ok (record, store))
    (hs : t'.store = store) (ho : t'.offered = t.offered) :
    Agrees m w s ⟨.owing record events, made ++ [⟨record, events⟩]⟩ t' := by
  refine h.commit (c := ⟨record, events⟩) (fun hm => ?_) ho
  obtain ⟨h1, -, ⟨h3, h4⟩, reads⟩ := h.idle hm
  rw [h1] at hi
  have same : ∀ r, s.load sku = some r → current.version = r.version → current = r :=
    fun r hr _ => Option.some.inj (h4.symm.trans hr)
  obtain ⟨hl, hk, -, he⟩ :=
    continues_swap (m := fun _ => m) (w := ⟨0, record, some now, none⟩) hd
      (keyed _ _ h4) rfl same hi
  have hears : Write.Hears w ⟨0, record, some now, none⟩ :=
    ⟨by rintro _ ⟨⟩; exact reads, fun _ h => by cases h⟩
  exact ⟨⟨hk ▸ h3, _, rfl, hears, hl⟩, hs.trans he⟩

end Agrees

theorem agrees_answer (keyed : ∀ sku r, s.load sku = some r → r.sku = sku) (h : Agrees m w s p t)
    (hm : Move m p q (Solo.answer w q t).1 p') : Agrees m w s p' (Solo.answer w q t).2 := by
  generalize hr : Solo.answer w q t = a at hm ⊢
  obtain ⟨reply, t'⟩ := a
  cases hm with
  | aside ha =>
    have hs : t'.store = t.store ∧ t'.offered = t.offered := by
      cases q <;> first | exact (Prod.mk.inj hr).2 ▸ ⟨rfl, rfl⟩ | cases ha
    exact h.stay rfl hs.1 hs.2 (fun _ h => h) fun _ => rfl
  | found hf hc =>
    obtain ⟨h1, rfl⟩ := Prod.mk.inj hr
    exact h.stay rfl rfl rfl (fun hs _ => ⟨hc, hs ▸ Except.ok.inj h1⟩) fun r => (hf.pending r).symm
  | missed hf =>
    obtain ⟨h1, rfl⟩ := Prod.mk.inj hr
    exact h.stay rfl rfl rfl (fun _ _ => trivial) fun r => (hf.pending r).symm
  | minted hf hc =>
    obtain ⟨h1, rfl⟩ := Prod.mk.inj hr
    exact h.stay rfl rfl rfl (fun _ _ => ⟨hc, _, h1⟩) fun r => (hf.pending r).symm
  | looked =>
    obtain ⟨h1, rfl⟩ := Prod.mk.inj hr
    exact h.stay rfl rfl rfl (fun _ h => h) fun _ => rfl
  | timed =>
    obtain ⟨h1, rfl⟩ := Prod.mk.inj hr
    exact h.stay rfl rfl rfl (fun _ h => ⟨h, _, h1⟩) fun _ => rfl
  | inserted hd =>
    obtain ⟨h1, rfl⟩ := Prod.mk.inj hr
    exact h.insert hd (Store.insert_of_answer (Prod.ext h1 rfl)) rfl rfl
  | swapped hd =>
    obtain ⟨h1, rfl⟩ := Prod.mk.inj hr
    exact h.swap keyed hd (Store.swap_of_answer (Prod.ext h1 rfl)) rfl rfl
  | notInserted =>
    obtain ⟨h1, rfl⟩ := Prod.mk.inj hr
    have hs := Store.eq_of_answer_insert_error (Prod.ext h1 rfl)
    exact h.stay rfl hs rfl (fun _ _ => trivial) fun _ => rfl
  | notSwapped =>
    obtain ⟨h1, rfl⟩ := Prod.mk.inj hr
    have hs := Store.eq_of_answer_swap_error (Prod.ext h1 rfl)
    exact h.stay rfl hs rfl (fun _ _ => trivial) fun _ => rfl
  | named =>
    obtain ⟨h1, rfl⟩ := Prod.mk.inj hr
    exact h.stay rfl rfl rfl (fun _ h => h) fun _ => rfl
  | offered =>
    obtain ⟨h1, rfl⟩ := Prod.mk.inj hr
    exact h.offer rfl rfl

/-! ## Indifference to the bus -/

/-- What the bus answers makes no difference to the program, neither to its
result nor to what it does. -/
def Indifferent {α : Type} (p : Program α) : Prop :=
  ∀ (w : World) (bus : List Envelope → Envelope → Option String) (t : Solo),
    p.run (Solo.answer { w with bus := bus }) t = p.run (Solo.answer w) t

theorem indifferent_pure {α : Type} (a : α) : Indifferent (pure a) := fun _ _ _ => rfl

theorem Indifferent.bind {α β : Type} {p : Program α} {f : α → Program β} (hp : Indifferent p)
    (hf : ∀ a, Indifferent (f a)) : Indifferent (p >>= f) := by
  intro w bus t
  rw [Program.run_seq, Program.run_seq, hp, hf]

theorem indifferent_request {q : Request} (h : q.offers = []) :
    Indifferent (Program.request q) := by
  intro w bus t
  cases q <;> first | rfl | cases h

theorem indifferent_publish (record : StockRecord) (event : Event) :
    Indifferent (publish record event) := by
  refine (indifferent_request rfl).bind fun id => ?_
  intro w bus t
  have run (w : World) : (Program.publish (.about id record event)).run (Solo.answer w) t =
      (w.bus t.offered (.about id record event),
        { t with offered := t.offered ++ [.about id record event] }) := rfl
  rw [Program.run_seq, Program.run_seq, run, run]
  dsimp only
  -- a refused message is followed by an entry of the log, which leaves the solo run as it is
  cases bus t.offered (.about id record event) <;>
    cases w.bus t.offered (.about id record event) <;> rfl

/-- To come to the same with another bus is a logic of programs. -/
def indifference (w : World) (bus : List Envelope → Envelope → Option String) : Logic Solo where
  Holds p t post := p.run (Solo.answer { w with bus := bus }) t = p.run (Solo.answer w) t ∧
    post (p.run (Solo.answer w) t).1 (p.run (Solo.answer w) t).2
  pure h := ⟨rfl, h⟩
  bind {α β} p f t mid post hp hf := by
    obtain ⟨same, hm⟩ := hp
    rw [Program.run_seq, Program.run_seq, same]
    exact hf _ _ hm

section Bus

variable {w : World} {bus : List Envelope → Envelope → Option String}

theorem Indifferent.holds {α : Type} {p : Program α} {post : α → Solo → Prop} (h : Indifferent p)
    (t : Solo) (hp : ∀ a t, post a t) : (indifference w bus).Holds p t post :=
  ⟨h w bus t, hp _ _⟩

theorem passes_indifference {stand : Solo → Prop} (h : ∀ t, stand t) :
    Passes (indifference w bus) stand := by
  intro t q _ hq
  exact (indifferent_request hq.offers).holds t fun _ => h

def attempts_indifference (sku : SkuCode) (command : Timestamp → Except StockError Command) :
    Attempts (indifference w bus) sku command (fun _ => True) fun _ _ => True where
  loaded _ _ := True
  timed _ _ _ := True
  load t _ := (indifferent_request rfl).holds t fun
    | .error _, _ => trivial
    | .ok none, _ => trivial
    | .ok (some _), _ => trivial
  clock t _ _ := (indifferent_request rfl).holds t fun _ _ => trivial
  undecided _ _ _ _ _ _ := trivial
  refused _ _ _ _ _ _ _ _ := trivial
  idle _ _ _ _ _ _ _ _ := trivial
  swap t _ _ _ _ _ _ _ _ _ := (indifferent_request rfl).holds t fun _ _ => trivial
  passes _ := passes_indifference fun _ => trivial

theorem holds_publishAll_indifference (record : StockRecord) (events : List Event) (t : Solo) :
    (indifference w bus).Holds (publishAll record events) t fun _ _ => True :=
  holds_publishAll (fun _ _ => True)
    (fun t event _ _ => (indifferent_publish record event).holds t fun _ _ => trivial)
    events trivial

theorem holds_commit_indifference (config : LedgerConfig) (sku : SkuCode)
    (command : Timestamp → Except StockError Command) (t : Solo) :
    (indifference w bus).Holds (commit config sku command) t fun _ _ => True := by
  have retries : Retries (indifference w bus) config.retry (attempt sku command)
      LedgerError.isRetryable config.retry.attempts (fun _ _ => True) (fun _ _ _ => True)
      fun _ _ => True :=
    { attempt := fun n _ hr => (attempts_indifference sku command).holds n hr
      passes := fun _ _ => passes_indifference fun _ => trivial
      succeeded := fun _ _ _ _ => trivial
      failed := fun _ _ _ _ _ => trivial
      spent := fun _ _ _ _ _ _ => trivial
      again := fun _ _ _ _ _ _ => trivial }
  have closes : Closes (indifference w bus) sku (fun _ _ => True) fun _ _ => True :=
    { told := fun t c _ => holds_publishAll_indifference c.record c.events t
      failed := fun _ _ _ => trivial
      spent := fun _ _ _ _ => trivial
      passes := fun _ => passes_indifference fun _ => trivial }
  exact closes.holds (retries.run trivial)

def registers_indifference (config : LedgerConfig) (item : NewItem) :
    Registers (indifference w bus) config item (fun _ => True) (fun _ _ => True)
      fun _ _ => True where
  minted _ _ := True
  timed _ _ _ := True
  mint t _ := (indifferent_request rfl).holds t fun _ _ => trivial
  clock t _ _ := (indifferent_request rfl).holds t fun _ _ => trivial
  refused _ _ _ _ _ _ := trivial
  insert t _ _ _ _ _ _ := (indifferent_request rfl).holds t fun
    | .error _, _ => trivial
    | .ok _, _ => trivial
  passes _ := passes_indifference fun _ => trivial
  told t c _ := holds_publishAll_indifference c.record c.events t

end Bus

theorem indifferent_settle (config : LedgerConfig) (task : Task) :
    Indifferent (task.settle config) := by
  intro w bus t
  have settled : (indifference w bus).Holds (task.settle config) t fun _ _ => True :=
    holds_settle (fun item _ => (registers_indifference config item).holds trivial)
      (holds_commit_indifference config task.sku _ t) trivial
  exact settled.1

/-! ## Stores that were reached -/

theorem Write.Continues.isCreated {orders : Nat → Timestamp → Command → Prop}
    {before : Option StockRecord} {w : Write} {events : List Event}
    (h : w.Continues orders before events) : w.record.isCreated = true := by
  obtain ⟨base, now, command, candidate, -, -, -, he, -, hr⟩ := h
  have hc : candidate.isCreated = true := StockRecord.isCreated_execute he
  rw [hr]
  exact hc

/-- The store after any run of calls. -/
def reached (errands : List Errand) (turns : List Turn) : Store :=
  ((Floor.start (errands.map Errand.program)).run turns).store

theorem load_reached {errands : List Errand} {turns : List Turn} {sku : SkuCode} {r : StockRecord}
    (h : (reached errands turns).load sku = some r) : r.sku = sku ∧ r.isCreated = true := by
  have start := tracked_map (fun _ _ p => p.stand.IsFree) Errand.obeys_program errands
  obtain ⟨ps, es, ht⟩ := start.exists_run turns
  obtain ⟨hs, e, he, rfl⟩ := ht.known_load h
  obtain ⟨before, hc⟩ := (ht.linked sku).continues (mem_ofUnit.2 ⟨he, hs⟩)
  exact ⟨hs, hc.isCreated⟩

/-! ## All or nothing -/

/-- A task has committed to the store `s`, and everybody has been told. The command was built at a
reading of the clock; it was carried out on the stored record, or on an empty one under a fresh
identifier if there was none. -/
structure Task.IsCommitted (config : LedgerConfig) (task : Task) (w : World) (s : Store)
    (c : Commit) (t : Solo) : Prop where
  decided : ∃ now command base next, w.Reads now ∧ task.command config now = .ok command ∧
    (s.load task.sku = some base ∨
      s.load task.sku = none ∧ ∃ id, w.Mints id ∧ base = .empty ⟨id⟩ task.sku) ∧
    base.execute command = .ok (next, c.events) ∧
    c.record = next.atVersion (versionOf (s.load task.sku) + 1)
  created : ∀ item, task = .create item → s.load task.sku = none ∧ c.record.version = 1
  advanced : (∀ item, task ≠ .create item) →
    ∃ old, s.load task.sku = some old ∧ c.record.version = old.version + 1
  loaded : t.store.load task.sku = some c.record
  others : ∀ sku, sku ≠ task.sku → t.store.load sku = s.load sku
  told : List.Forall₂ (fun envelope event => envelope.recordId = c.record.id ∧
    envelope.sku = task.sku ∧ envelope.eventType = event.type ∧
    envelope.sequenceNumber = c.record.version ∧ envelope.payload = event.toJson) t.offered c.events

/-- A task has had nothing to do: of the stored record, its command at a reading of the
clock makes no events. -/
structure Task.IsIdle (config : LedgerConfig) (task : Task) (w : World) (s : Store) (c : Commit)
    (t : Solo) : Prop where
  decided : ∃ now command, w.Reads now ∧ task.command config now = .ok command ∧
    c.record.execute command = .ok (c.record, [])
  loaded : s.load task.sku = some c.record
  store : t.store = s
  offered : t.offered = []

/-- How a task that ran alone with the store `s` may have ended. -/
def Task.IsSettled (config : LedgerConfig) (task : Task) (w : World) (s : Store) :
    Except LedgerError Commit → Solo → Prop
  | .error _, t => t.store = s ∧ t.offered = []
  | .ok c, t =>
    (c.events = [] ∧ task.IsIdle config w s c t) ∨ (c.events ≠ [] ∧ task.IsCommitted config w s c t)

/-- A creation begins a unit, and any other command needs one that is there. -/
theorem Commits.creation_iff {config : LedgerConfig} {task : Task} {s : Store} {c : Commit}
    (h : Commits (task.mandate config) w s c)
    (hs : ∀ r, s.load task.sku = some r → r.isCreated = true) :
    s.load task.sku = none ↔ ∃ item, task = .create item := by
  obtain ⟨hk, x, -, -, base, now, command, candidate, hb, -, ho, he, -, -⟩ := h
  have hk' : c.record.sku = task.sku := hk
  rw [hk'] at hb
  have s1 := StockRecord.isCreated_of_eventsFor (StockRecord.execute_eq_ok_iff.1 he).1
  have s2 : s.load task.sku = none ↔ base.isCreated = false := by
    cases hl : s.load task.sku with
    | none =>
      rw [hl, Write.basis?, Option.none_or] at hb
      obtain ⟨id, -, rfl⟩ := Option.map_eq_some_iff.1 hb
      exact iff_of_true rfl rfl
    | some r =>
      rw [hl, Write.basis?, Option.some_or] at hb
      cases hb
      simp [hs base hl]
  have ho' : task.command config now = .ok command := ho
  rw [s2, s1, Task.creates_iff ho']

theorem Commits.decided {config : LedgerConfig} {task : Task} {c : Commit}
    (h : Commits (task.mandate config) w s c) :
    ∃ now command base next, w.Reads now ∧ task.command config now = .ok command ∧
      (s.load task.sku = some base ∨
        s.load task.sku = none ∧ ∃ id, w.Mints id ∧ base = .empty ⟨id⟩ task.sku) ∧
      base.execute command = .ok (next, c.events) ∧
      c.record = next.atVersion (versionOf (s.load task.sku) + 1) := by
  obtain ⟨hk, x, hx, hears, base, now, command, next, hb, hn, ho, he, -, hr⟩ := h
  have hk' : c.record.sku = task.sku := hk
  rw [hx] at hr
  rw [Write.basis?, hx, hk'] at hb
  rw [hk'] at hr
  refine ⟨now, command, base, next, hears.clock now hn, ho, ?_, he, hr⟩
  cases hl : s.load task.sku with
  | some r =>
    rw [hl, Option.some_or] at hb
    exact .inl hb
  | none =>
    rw [hl, Option.none_or] at hb
    obtain ⟨id, hm, rfl⟩ := Option.map_eq_some_iff.1 hb
    exact .inr ⟨rfl, id, hears.minted id hm, rfl⟩

theorem Commits.isCommitted {config : LedgerConfig} {task : Task} {c : Commit}
    (h : Commits (task.mandate config) w s c)
    (hs : ∀ r, s.load task.sku = some r → r.isCreated = true) (ht : t.store = s.put c.record)
    (ho : List.Forall₂ (Tells c.record) t.offered c.events) : task.IsCommitted config w s c t := by
  have hk : c.record.sku = task.sku := h.1
  have hv : c.record.version = versionOf (s.load task.sku) + 1 := by
    obtain ⟨-, x, hx, -, hc⟩ := h
    rw [← hx, ← hk]
    exact hc.version_eq
  refine ⟨h.decided, fun item hi => ?_, fun hn => ?_, ?_, fun sku hne => ?_, ho.imp ?_⟩
  · have hl := (h.creation_iff hs).2 ⟨item, hi⟩
    rw [hl] at hv
    exact ⟨hl, hv⟩
  · cases hl : s.load task.sku with
    | none =>
      obtain ⟨item, hi⟩ := (h.creation_iff hs).1 hl
      exact absurd hi (hn item)
    | some old =>
      rw [hl] at hv
      exact ⟨old, rfl, hv⟩
  · rw [ht, ← hk, Store.load_put_self]
  · rw [ht, Store.load_put_of_ne]
    rw [hk]
    exact hne
  · rintro envelope event ⟨id, rfl⟩
    exact ⟨rfl, hk, rfl, rfl, rfl⟩

theorem isSettled_run (config : LedgerConfig) (task : Task) (w : World)
    (hs : ∀ sku r, s.load sku = some r → r.sku = sku ∧ r.isCreated = true) :
    task.IsSettled config w s (Solo.run w s (task.settle config)).1
      (Solo.run w s (task.settle config)).2 := by
  have start : Agrees (task.mandate config) w s ⟨.free, []⟩ ⟨s, 0, []⟩ :=
    ⟨fun _ => ⟨rfl, rfl, trivial⟩, fun c he => by cases he⟩
  obtain ⟨p, hp, ha⟩ := (obeys_settle config task).run start fun p t q p' h hm =>
    agrees_answer (fun sku r hl => (hs sku r hl).1) h hm
  change Outcome _ _ _ (Solo.run w s (task.settle config)).1 p at hp
  change Agrees _ w s p (Solo.run w s (task.settle config)).2 at ha
  generalize (Solo.run w s (task.settle config)).1 = result at hp
  generalize (Solo.run w s (task.settle config)).2 = t at ha
  cases result with
  | error e =>
    obtain ⟨h1, h2, -⟩ := ha.idle hp.1
    exact ⟨h1, h2⟩
  | ok c =>
    obtain ⟨he, hm, sku, now, command, hk, ho, hst, hx⟩ | ⟨hne, hm, hst⟩ := hp
    · obtain ⟨h1, h2, h3⟩ := ha.idle hm
      rw [hst] at h3
      obtain ⟨⟨-, hl⟩, reads⟩ := h3
      have hk' : sku = task.sku := hk
      exact .inl ⟨he, ⟨now, command, reads, ho, hx⟩, hk' ▸ hl, h1, h2⟩
    · obtain ⟨h1, h2, h3, -⟩ := ha.done c hm
      have hf : p.stand.IsFree := by
        rw [hst]
        rfl
      exact .inr ⟨hne, h1.isCommitted (fun r hl => (hs _ r hl).2) h2 (h3.complete hf)⟩

/-- What it means that a task is done entirely or not at all: so it ends, the operation answers with
the record of the commit, and another bus would have made no difference. -/
structure Task.IsAtomic (config : LedgerConfig) (task : Task) (s : Store) (w : World) : Prop where
  settled : task.IsSettled config w s (Solo.run w s (task.settle config)).1
    (Solo.run w s (task.settle config)).2
  answered : Solo.run w s (task.program config) =
    ((Solo.run w s (task.settle config)).1.map Commit.record, (Solo.run w s (task.settle config)).2)
  indifferent : ∀ bus, Solo.run { w with bus := bus } s (task.program config) =
    Solo.run w s (task.program config)

/-- Whatever calls have led to the store, every task that then runs alone is done
entirely or not at all. -/
theorem isAtomic_reached (config : LedgerConfig) (task : Task) (errands : List Errand)
    (turns : List Turn) (w : World) : task.IsAtomic config (reached errands turns) w where
  settled := isSettled_run config task w fun sku r => load_reached
  answered := by
    rw [Task.program_eq]
    exact Program.run_bind _ _ _ _
  indifferent bus := by
    rw [Task.program_eq]
    exact (indifferent_settle config task).bind (fun r => indifferent_pure _) w bus _

end Stockroom.Ledger
