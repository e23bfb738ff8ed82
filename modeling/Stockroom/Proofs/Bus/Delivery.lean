import Stockroom.Bus.Broadcast

/-! Delivery on an open bus: a subscription in use has every message since it was made, in
the order of publication. -/
namespace Stockroom.Broadcast
set_option autoImplicit false

variable {μ : Type} {b : Broadcast μ} {i : Nat} {queue : List μ}

/-- The bus is open and delivers to the subscription, for which the queue waits. -/
structure Holds (b : Broadcast μ) (i : Nat) (queue : List μ) : Prop where
  isOpen : b.state = .open
  listed : b.listed.contains i = true
  inbox : b.inboxes[i]? = some ⟨queue, false⟩

theorem holds_subscribe {next : Broadcast μ} (ho : b.state = .open)
    (hs : b.subscribe = some (i, next)) : next.Holds i [] := by
  rw [subscribe, ho] at hs
  cases hs
  refine ⟨rfl, ?_, ?_⟩
  · show (b.listed ++ [b.inboxes.length]).contains b.inboxes.length = true
    simp
  · exact List.getElem?_concat_length

theorem Holds.isLive (h : b.Holds i queue) : b.isLive i = true := by
  rw [Broadcast.isLive, h.inbox]
  rfl

/-- One publication appends its message to the queue. -/
theorem Holds.publish (h : b.Holds i queue) (message : μ) :
    ∃ next, b.publish message = .ok next ∧ next.Holds i (queue ++ [message]) := by
  rw [Broadcast.publish, h.isOpen]
  refine ⟨_, rfl, rfl, ?_, ?_⟩
  · show (b.listed.filter b.isLive).contains i = true
    rw [List.contains_iff_mem, List.mem_filter]
    exact ⟨List.contains_iff_mem.1 h.listed, h.isLive⟩
  · show (b.inboxes.zipIdx.map _)[i]? = _
    rw [List.getElem?_map, List.getElem?_zipIdx, h.inbox]
    simp only [Option.map_some, Nat.zero_add, h.listed, if_true]
    rfl

theorem Holds.drain (h : b.Holds i queue) : ∃ rest, b.drain i = some (queue, rest) := by
  rw [Broadcast.drain, inbox?, h.inbox]
  exact ⟨_, rfl⟩

end Stockroom.Broadcast
