import Stockroom.Bus.Broadcast

/-! Calls to a bus, one after the other. Each is answered, and one about a subscription that is not
there changes nothing. A publication can also be made subscription by subscription: each in turn is
sent a copy, and leaves the list if it has been dropped. -/
namespace Stockroom.Broadcast
set_option autoImplicit false

inductive Call (μ : Type) where
  | subscribe
  | publish (message : μ)
  | drop (subscription : Nat)
  | receive (subscription : Nat)
  | drain (subscription : Nat)

inductive Answer (μ : Type) where
  | subscribed (subscription : Option Nat)
  | published (result : Except PublishError Unit)
  | dropped (known : Bool)
  | received (result : Except ReceiveError μ)
  | drained (messages : Option (List μ))

variable {μ : Type}

namespace Call

/-- How many subscriptions the calls make. -/
def openings : List (Call μ) → Nat
  | [] => 0
  | .subscribe :: cs => openings cs + 1
  | _ :: cs => openings cs

def messages : List (Call μ) → List μ
  | [] => []
  | .publish message :: cs => message :: messages cs
  | _ :: cs => messages cs

/-- Whether the calls make a subscription of this number and do not drop it afterwards. -/
def Keeps (cs : List (Call μ)) (i : Nat) : Prop :=
  ∃ before after, cs = before ++ .subscribe :: after ∧ openings before = i ∧ .drop i ∉ after

end Call

/-- The messages that a subscription has received by a call. -/
def Answer.taken (i : Nat) : Call μ → Answer μ → List μ
  | .receive j, .received (.ok message) => if j = i then [message] else []
  | .drain j, .drained (some messages) => if j = i then messages else []
  | _, _ => []

/-- The answer to a call, and the bus after it. -/
def call (b : Broadcast μ) : Call μ → Answer μ × Broadcast μ
  | .subscribe =>
    match b.subscribe with
    | some (i, next) => (.subscribed (some i), next)
    | none => (.subscribed none, b)
  | .publish message =>
    match b.publish message with
    | .ok next => (.published (.ok ()), next)
    | .error e => (.published (.error e), b)
  | .drop i =>
    match b.drop i with
    | some next => (.dropped true, next)
    | none => (.dropped false, b)
  | .receive i =>
    match b.receive i with
    | .ok (message, next) => (.received (.ok message), next)
    | .error e => (.received (.error e), b)
  | .drain i =>
    match b.drain i with
    | some (messages, next) => (.drained (some messages), next)
    | none => (.drained none, b)

def run (b : Broadcast μ) : List (Call μ) → Broadcast μ
  | [] => b
  | c :: cs => (b.call c).2.run cs

/-- All that a subscription receives by the calls, in the order in which it does. -/
def received (b : Broadcast μ) (i : Nat) : List (Call μ) → List μ
  | [] => []
  | c :: cs => (b.call c).1.taken i c ++ (b.call c).2.received i cs

/-! ## Subscription by subscription -/

/-- Sends a copy to one subscription; `none` if it has been dropped. -/
def send? (message : μ) (i : Nat) (inboxes : List (Inbox μ)) : Option (List (Inbox μ)) :=
  match inboxes[i]? with
  | some inbox => if inbox.isDropped then none
    else some (inboxes.set i { inbox with queue := inbox.queue ++ [message] })
  | none => none

/-- The subscriptions that could be sent a copy, and all inboxes afterwards. -/
def retain (message : μ) : List Nat → List (Inbox μ) → List Nat × List (Inbox μ)
  | [], inboxes => ([], inboxes)
  | i :: rest, inboxes =>
    match send? message i inboxes with
    | some next => (i :: (retain message rest next).1, (retain message rest next).2)
    | none => retain message rest inboxes

def passOn (b : Broadcast μ) (message : μ) : Broadcast μ :=
  { b with
    listed := (retain message b.listed b.inboxes).1
    inboxes := (retain message b.listed b.inboxes).2 }

end Stockroom.Broadcast
