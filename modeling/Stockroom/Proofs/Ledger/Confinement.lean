import Stockroom.Ledger.Session
import Stockroom.Proofs.Ledger.Course
import Stockroom.Proofs.Movement.Decision
import Stockroom.Proofs.Movement.Fitting

/-! Operations are confined to their units. Whatever an operation is told about its own unit, it
asks the store about no other one and hands the bus messages about no other one. -/
namespace Stockroom
set_option autoImplicit false

namespace Request

/-- Questions that concern no unit but the given one. -/
def IsAbout (k : SkuCode) : Request → Prop
  | .load sku => sku = k
  | .insert record => record.sku = k
  | .swap candidate _ => candidate.sku = k
  | .scan => False
  | .publish envelope => envelope.sku = k
  | _ => True

/-- Answers in which every record is one of the given unit. -/
def Fits (k : SkuCode) : (q : Request) → q.Reply → Prop
  | .load _, reply => ∀ r, reply = .ok (some r) → r.sku = k
  | .insert _, reply => ∀ r, reply = .ok r → r.sku = k
  | .swap _ _, reply => ∀ r, reply = .ok r → r.sku = k
  | _, _ => True

end Request

namespace Program

variable {α β : Type} {k : SkuCode}

/-- All questions of the program are about one unit, and it ends as `post` says, as
long as the answers fit. -/
def Confined (k : SkuCode) (post : α → Prop) : Program α → Prop
  | .done a => post a
  | .ask q next => q.IsAbout k ∧ ∀ reply, Request.Fits k q reply → (next reply).Confined k post

theorem Confined.bind {mid : α → Prop} {post : β → Prop} {p : Program α} {f : α → Program β}
    (hp : p.Confined k mid) (hf : ∀ a, mid a → (f a).Confined k post) :
    (p >>= f).Confined k post := by
  induction p with
  | done a => exact hf a hp
  | ask q next ih => exact ⟨hp.1, fun reply hr => ih reply (hp.2 reply hr)⟩

theorem confined_request_bind {post : β → Prop} {q : Request} {f : q.Reply → Program β} :
    (request q >>= f).Confined k post ↔
      q.IsAbout k ∧ ∀ reply, Request.Fits k q reply → (f reply).Confined k post :=
  Iff.rfl

theorem Confined.answer {mid : α → Prop} {p : Program α} (hp : p.Confined k mid) (f : α → β) :
    (p >>= fun a => pure (f a)).Confined k fun _ => True :=
  hp.bind fun _ _ => trivial

/-- In two surroundings that answer alike every question about the unit, a confined
program comes to the same. -/
theorem Confined.run {σ τ : Type} {post : α → Prop} {rel : σ → τ → Prop}
    {answer : (q : Request) → σ → q.Reply × σ} {answer' : (q : Request) → τ → q.Reply × τ}
    {p : Program α} {s : σ} {t : τ} (h : p.Confined k post) (hr : rel s t)
    (keep : ∀ s t q, rel s t → Request.IsAbout k q → (answer q s).1 = (answer' q t).1 ∧
      Request.Fits k q (answer q s).1 ∧ rel (answer q s).2 (answer' q t).2) :
    (p.run answer s).1 = (p.run answer' t).1 ∧ rel (p.run answer s).2 (p.run answer' t).2 := by
  induction p generalizing s t with
  | done a => exact ⟨rfl, hr⟩
  | ask q next ih =>
    obtain ⟨h1, h2, h3⟩ := keep s t q hr h.1
    have s1 := ih (answer q s).1 (h.2 _ h2) h3
    show ((next (answer q s).1).run answer (answer q s).2).1 =
        ((next (answer' q t).1).run answer' (answer' q t).2).1 ∧
      rel ((next (answer q s).1).run answer (answer q s).2).2
        ((next (answer' q t).1).run answer' (answer' q t).2).2
    rw [← h1]
    exact s1

end Program

namespace Ledger

open Program (Confined Logic confined_request_bind)

variable {k : SkuCode}

/-- An answer whose record, if it has one, is of the given unit. -/
def Yields (k : SkuCode) {ε : Type} : Except ε Commit → Prop
  | .ok c => c.record.sku = k
  | .error _ => True

/-- To stay with one unit is a logic of programs. -/
def confinement (k : SkuCode) : Logic Unit where
  Holds p _ post := p.Confined k fun a => post a ()
  pure h := h
  bind hp hf := hp.bind fun a => hf a ()

theorem passes_confinement (stand : Unit → Prop) : Passes (confinement k) stand := by
  intro _ q hs hq
  refine ⟨?_, fun _ _ => hs⟩
  cases q <;> trivial

/-! ## Commits -/

theorem sku_of_execute {r next : StockRecord} {c : Command} {events : List Event}
    (h : r.execute c = .ok (next, events)) : next.sku = r.sku := by
  rw [(StockRecord.execute_eq_ok_iff.1 h).2, StockRecord.sku_applyAll]

def attempts_confinement (k : SkuCode) (command : Timestamp → Except StockError Command) :
    Attempts (confinement k) k command (fun _ => True) fun result _ => Yields k result where
  loaded current _ := current.sku = k
  timed current _ _ := current.sku = k
  load _ _ := ⟨rfl, fun
    | .error _, _ => trivial
    | .ok none, _ => trivial
    | .ok (some current), hr => hr current rfl⟩
  clock _ _ hk := ⟨trivial, fun _ _ => hk⟩
  undecided _ _ _ _ _ _ := trivial
  refused _ _ _ _ _ _ _ _ := trivial
  idle _ _ _ _ _ hk _ _ := hk
  swap _ _ _ _ _ _ hk _ he _ := ⟨(sku_of_execute he).trans hk, fun
    | .error _, _ => trivial
    | .ok record, hr => hr record rfl⟩
  passes _ := passes_confinement _

theorem retries_confinement (config : LedgerConfig) (k : SkuCode)
    (command : Timestamp → Except StockError Command) :
    Retries (confinement k) config.retry (attempt k command)
      LedgerError.isRetryable config.retry.attempts
      (fun _ _ => True) (fun _ result _ => Yields k result) fun result _ => Yields k result where
  attempt n _ := (attempts_confinement k command).holds n
  passes _ _ := passes_confinement _
  succeeded _ _ _ hk := hk
  failed _ _ _ _ _ := trivial
  spent _ _ _ _ _ _ := trivial
  again _ _ _ _ _ _ := trivial

def publishes_confinement {record : StockRecord} (hk : record.sku = k) :
    Publishes (confinement k) record fun _ _ => True where
  naming _ _ _ _ := True
  name _ _ _ _ := ⟨trivial, fun _ _ => trivial⟩
  offer _ _ _ _ _ := ⟨hk, fun _ _ => trivial⟩
  passes _ := passes_confinement _

theorem closes_confinement (k : SkuCode) :
    Closes (confinement k) k (fun result _ => Yields k result) fun _ _ => True where
  told _ c hk := (publishes_confinement hk).holds c.events trivial
  failed _ _ _ := trivial
  spent _ _ _ _ := trivial
  passes _ := passes_confinement _

theorem confined_commit (config : LedgerConfig) (k : SkuCode)
    (command : Timestamp → Except StockError Command) :
    (commit config k command).Confined k fun _ => True :=
  (closes_confinement k).holds ((retries_confinement config k command).run (s := ()) trivial)

/-! ## Operations -/

def registers_confinement (config : LedgerConfig) (item : NewItem) :
    Registers (confinement item.sku) config item (fun _ => True)
      (fun c _ => c.record.sku = item.sku) fun _ _ => True where
  minted _ _ := True
  timed _ _ _ := True
  mint _ _ := ⟨trivial, fun _ _ => trivial⟩
  clock _ _ _ := ⟨trivial, fun _ _ => trivial⟩
  refused _ _ _ _ _ _ := trivial
  insert _ _ _ _ _ _ he := ⟨sku_of_execute he, fun
    | .error _, _ => trivial
    | .ok record, hr => hr record rfl⟩
  passes _ := passes_confinement _
  told _ c hk := (publishes_confinement hk).holds c.events trivial

theorem confined_program (config : LedgerConfig) (task : Task) :
    (task.program config).Confined task.sku fun _ => True := by
  rw [Task.program_eq]
  have s1 : (confinement task.sku).Holds (task.settle config) () fun _ _ => True := by
    refine holds_settle (fun item ht => ?_) (confined_commit config task.sku _) trivial
    subst ht
    exact (registers_confinement config item).holds trivial
  exact Confined.answer s1 _

theorem confined_get (k : SkuCode) : (get k).Confined k fun _ => True := by
  refine confined_request_bind.2 ⟨rfl, fun reply _ => ?_⟩
  match reply with
  | .error e => trivial
  | .ok none => trivial
  | .ok (some record) => trivial

theorem Visit.confined_program (v : Visit) : v.program.Confined v.sku fun _ => True := by
  obtain ⟨config, world, service⟩ := v
  cases service with
  | perform task => exact (Ledger.confined_program config task).answer _
  | get sku => exact (confined_get sku).answer _
  | status sku => exact ((confined_get sku).answer _).answer _
  | reservation sku id =>
    have s1 : (Ledger.reservation sku id).Confined sku fun _ => True := by
      refine (confined_get sku).bind fun result _ => ?_
      cases result with
      | error e => trivial
      | ok record =>
        dsimp only
        split <;> trivial
    exact s1.answer _

end Ledger

end Stockroom
