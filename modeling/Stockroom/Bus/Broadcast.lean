/-! A broadcast bus within one process. Every message goes to the queue of each subscription on the
bus's list, in the order of publication. Dropped subscriptions stay on the list until the next
message. A message that cannot be copied breaks off its publication, and from then on the bus takes
neither messages nor subscriptions. -/
namespace Stockroom
set_option autoImplicit false

/-- The receiving end of a subscription: what waits to be received, oldest first. -/
structure Inbox (μ : Type) where
  queue : List μ
  isDropped : Bool
  deriving DecidableEq

/-- How a bus stands: in order, broken by a failed publication, or gone. -/
inductive BusState where
  | open
  | broken
  | closed
  deriving DecidableEq

/-- Subscriptions are numbered in the order of their creation; `listed` are those
that the bus delivers to. -/
structure Broadcast (μ : Type) where
  inboxes : List (Inbox μ)
  listed : List Nat
  state : BusState
  deriving DecidableEq

inductive PublishError where
  /-- The bus broke earlier. -/
  | broken
  /-- This message broke the bus. -/
  | uncopied
  | closed
  deriving DecidableEq

/-- Why nothing was received. -/
inductive ReceiveError where
  /-- Nothing waits, but more may come. -/
  | empty
  /-- Nothing waits, and nothing can come. -/
  | disconnected
  | unknownSubscription
  deriving DecidableEq

namespace Broadcast

variable {μ : Type}

def new : Broadcast μ := ⟨[], [], .open⟩

def isLive (b : Broadcast μ) (i : Nat) : Bool :=
  match b.inboxes[i]? with
  | some inbox => !inbox.isDropped
  | none => false

/-- A new subscription and its number; `none` without a bus. A broken bus never delivers to it. -/
def subscribe (b : Broadcast μ) : Option (Nat × Broadcast μ) :=
  let i := b.inboxes.length
  let inboxes := b.inboxes ++ [⟨[], false⟩]
  match b.state with
  | .open => some (i, { b with inboxes := inboxes, listed := b.listed ++ [i] })
  | .broken => some (i, { b with inboxes := inboxes })
  | .closed => none

def push (inbox : Inbox μ) (message : μ) : Inbox μ :=
  if inbox.isDropped then inbox else { inbox with queue := inbox.queue ++ [message] }

/-- Queues the message for every listed subscription that is not dropped, and takes the
dropped ones off the list. -/
def publish (b : Broadcast μ) (message : μ) : Except PublishError (Broadcast μ) :=
  match b.state with
  | .open =>
    .ok { b with
      inboxes := b.inboxes.zipIdx.map fun p =>
        if b.listed.contains p.2 then push p.1 message else p.1
      listed := b.listed.filter b.isLive }
  | .broken => .error .broken
  | .closed => .error .closed

/-- Publishing a message that cannot be copied: it breaks the bus, unless nobody is on the list,
so that no copy is made. -/
def publishUncopyable (b : Broadcast μ) : Option PublishError × Broadcast μ :=
  match b.state with
  | .open => if b.listed.isEmpty then (none, b) else (some .uncopied, { b with state := .broken })
  | .broken => (some .broken, b)
  | .closed => (some .closed, b)

/-- The number of subscriptions on the list; a broken bus counts none. -/
def count (b : Broadcast μ) : Option Nat :=
  match b.state with
  | .open => some b.listed.length
  | .broken => some 0
  | .closed => none

/-- The end of the bus; queued messages stay. -/
def close (b : Broadcast μ) : Broadcast μ := { b with listed := [], state := .closed }

def inbox? (b : Broadcast μ) (i : Nat) : Option (Inbox μ) :=
  match b.inboxes[i]? with
  | some inbox => if inbox.isDropped then none else some inbox
  | none => none

def setInbox (b : Broadcast μ) (i : Nat) (inbox : Inbox μ) : Broadcast μ :=
  { b with inboxes := b.inboxes.set i inbox }

/-- Drops a subscription with all that waits for it; dropping it again changes nothing. -/
def drop (b : Broadcast μ) (i : Nat) : Option (Broadcast μ) :=
  b.inboxes[i]?.map fun _ => b.setInbox i ⟨[], true⟩

/-- The oldest waiting message of a subscription. -/
def receive (b : Broadcast μ) (i : Nat) : Except ReceiveError (μ × Broadcast μ) :=
  match b.inbox? i with
  | none => .error .unknownSubscription
  | some inbox =>
    match inbox.queue with
    | message :: rest => .ok (message, b.setInbox i { inbox with queue := rest })
    | [] => .error (if b.listed.contains i then .empty else .disconnected)

/-- All that waits for a subscription. -/
def drain (b : Broadcast μ) (i : Nat) : Option (List μ × Broadcast μ) :=
  (b.inbox? i).map fun inbox => (inbox.queue, b.setInbox i { inbox with queue := [] })

end Broadcast

end Stockroom
