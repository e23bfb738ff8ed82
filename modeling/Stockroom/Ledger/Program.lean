import Stockroom.Document.Envelope
import Stockroom.Log.Entry
import Stockroom.Store.Error

/-! Programs over the surroundings of a ledger: store, clock, bus, log and a source of identifiers
and of chance. A program asks one question after the other, and each is answered in one
indivisible step. `run` lets one surrounding answer all questions; interleavings of several
programs are made of the same steps. -/
namespace Stockroom
set_option autoImplicit false

inductive Request where
  | load (sku : SkuCode)
  | insert (record : StockRecord)
  | swap (candidate : StockRecord) (expected : ExpectedVersion)
  | scan
  | clock
  | freshId
  | publish (envelope : Envelope)
  | note (entry : LogEntry)
  /-- A wait of at most the given number of nanoseconds. -/
  | draw (bound : Nat)
  /-- The nanoseconds since the operation began. -/
  | elapsed
  | wait (nanos : Nat)

/-- The answers to a question. A failed publication is answered by its description. -/
def Request.Reply : Request → Type
  | .load _ => Except StoreError (Option StockRecord)
  | .insert _ => Except StoreError StockRecord
  | .swap _ _ => Except StoreError StockRecord
  | .scan => Except StoreError (List StockRecord)
  | .clock => Timestamp
  | .freshId => Uuid
  | .publish _ => Option String
  | .note _ => Unit
  | .draw bound => Fin (bound + 1)
  | .elapsed => Nat
  | .wait _ => Unit

inductive Program (α : Type) where
  | done (a : α)
  | ask (q : Request) (next : q.Reply → Program α)

namespace Program

variable {α β σ : Type}

def bind : Program α → (α → Program β) → Program β
  | .done a, f => f a
  | .ask q next, f => .ask q fun reply => (next reply).bind f

instance : Monad Program where
  pure := .done
  bind := bind

/-! ## Single questions -/

def request (q : Request) : Program q.Reply := .ask q .done

def load (sku : SkuCode) : Program (Except StoreError (Option StockRecord)) := request (.load sku)

def insert (record : StockRecord) : Program (Except StoreError StockRecord) :=
  request (.insert record)

def swap (candidate : StockRecord) (expected : ExpectedVersion) :
    Program (Except StoreError StockRecord) :=
  request (.swap candidate expected)

def scan : Program (Except StoreError (List StockRecord)) := request .scan

def clock : Program Timestamp := request .clock

def freshId : Program Uuid := request .freshId

def publish (envelope : Envelope) : Program (Option String) := request (.publish envelope)

def note (entry : LogEntry) : Program Unit := request (.note entry)

def draw (bound : Nat) : Program (Fin (bound + 1)) := request (.draw bound)

def elapsed : Program Nat := request .elapsed

def wait (nanos : Nat) : Program Unit := request (.wait nanos)

/-! ## Runs -/

/-- Runs a program in surroundings that answer each question from their state. -/
def run (answer : (q : Request) → σ → q.Reply × σ) : Program α → σ → α × σ
  | .done a, s => (a, s)
  | .ask q next, s => (next (answer q s).1).run answer (answer q s).2

/-! ## Laws -/

theorem bind_done (p : Program α) : p.bind .done = p := by
  induction p with
  | done a => rfl
  | ask q next ih => simp only [bind, ih]

theorem bind_assoc {γ : Type} (p : Program α) (f : α → Program β) (g : β → Program γ) :
    (p.bind f).bind g = p.bind fun a => (f a).bind g := by
  induction p with
  | done a => rfl
  | ask q next ih => simp only [bind, ih]

instance : LawfulMonad Program :=
  .mk' Program (fun p => bind_done p) (fun _ _ => rfl) bind_assoc

theorem run_bind (answer : (q : Request) → σ → q.Reply × σ) (p : Program α) (f : α → Program β)
    (s : σ) :
    (p.bind f).run answer s = (f (p.run answer s).1).run answer (p.run answer s).2 := by
  induction p generalizing s with
  | done a => rfl
  | ask q next ih => simp only [bind, run, ih]

theorem run_seq (answer : (q : Request) → σ → q.Reply × σ) (p : Program α) (f : α → Program β)
    (s : σ) :
    (p >>= f).run answer s = (f (p.run answer s).1).run answer (p.run answer s).2 :=
  run_bind answer p f s

theorem run_request_bind (answer : (q : Request) → σ → q.Reply × σ) (q : Request)
    (f : q.Reply → Program α) (s : σ) :
    (request q >>= f).run answer s = (f (answer q s).1).run answer (answer q s).2 := rfl

end Program

end Stockroom
