import Stockroom.Bus.Calls
import Stockroom.Proofs.Bus.Delivery

/-! Subscriptions over a run of calls. What a subscription has received and what still waits
for it are together the messages published since it was made; nobody else's calls have a part
in it. The list of the bus has every subscription in use once, and every publication takes
the dropped ones off it. -/
namespace Stockroom.Broadcast
set_option autoImplicit false

open Call (openings messages Keeps)

variable {μ : Type} {b : Broadcast μ} {c : Call μ} {i j : Nat} {queue : List μ}

theorem isLive_iff : b.isLive i = true ↔ ∃ queue, b.inboxes[i]? = some ⟨queue, false⟩ := by
  unfold isLive
  cases h : b.inboxes[i]? with
  | none => simp
  | some inbox =>
    obtain ⟨queue, isDropped⟩ := inbox
    simp

theorem inbox?_eq_some_iff {inbox : Inbox μ} :
    b.inbox? i = some inbox ↔ b.inboxes[i]? = some inbox ∧ inbox.isDropped = false := by
  unfold inbox?
  cases b.inboxes[i]? with
  | none => simp
  | some found =>
    by_cases h : found.isDropped = true
    · simp only [h, if_true, Option.some.injEq, reduceCtorEq, false_iff]
      rintro ⟨rfl, h'⟩
      cases h.symm.trans h'
    · dsimp only
      rw [if_neg h, Option.some.injEq]
      constructor
      · rintro rfl
        exact ⟨rfl, by simpa using h⟩
      · exact And.left

theorem getElem?_setInbox (b : Broadcast μ) (i j : Nat) (inbox : Inbox μ) :
    (b.setInbox i inbox).inboxes[j]? = if i = j then
      b.inboxes[j]?.map fun _ => inbox else b.inboxes[j]? := by
  show (b.inboxes.set i inbox)[j]? = _
  rw [List.getElem?_set]
  by_cases h : i = j
  · subst h
    by_cases lt : i < b.inboxes.length
    · simp [lt]
    · simp [lt]
  · simp [h]

/-! ## Calls about one subscription -/

/-- How a subscription takes what waits for it: some of it from the front, or nothing. -/
inductive Takes (b : Broadcast μ) (i : Nat) (c : Call μ) : Prop where
  | some (front rest : List μ) (h : b.inboxes[i]? = some ⟨front ++ rest, false⟩)
    (after : (b.call c).2 = b.setInbox i ⟨rest, false⟩)
    (taken : ∀ j, (b.call c).1.taken j c = if i = j then front else [])
  | none (after : (b.call c).2 = b) (taken : ∀ j, (b.call c).1.taken j c = [])

theorem takes_receive (b : Broadcast μ) (i : Nat) : Takes b i (.receive i) := by
  cases hi : b.inbox? i with
  | none =>
    exact .none (by simp [call, receive, hi]) fun j => by simp [call, receive, hi, Answer.taken]
  | some inbox =>
    obtain ⟨queue, isDropped⟩ := inbox
    obtain ⟨h1, h2⟩ := inbox?_eq_some_iff.1 hi
    cases h2
    cases queue with
    | nil =>
      exact .none (by simp [call, receive, hi]) fun j => by simp [call, receive, hi, Answer.taken]
    | cons message rest =>
      exact .some [message] rest h1 (by simp [call, receive, hi]) fun j => by
        simp [call, receive, hi, Answer.taken]

theorem takes_drain (b : Broadcast μ) (i : Nat) : Takes b i (.drain i) := by
  cases hi : b.inbox? i with
  | none => exact .none (by simp [call, drain, hi]) fun j => by simp [call, drain, hi, Answer.taken]
  | some inbox =>
    obtain ⟨queue, isDropped⟩ := inbox
    obtain ⟨h1, h2⟩ := inbox?_eq_some_iff.1 hi
    cases h2
    refine .some queue [] (by rw [List.append_nil]; exact h1) ?_ fun j => ?_
    · simp [call, drain, hi]
    · simp [call, drain, hi, Answer.taken]

theorem call_drop (b : Broadcast μ) (i : Nat) : (b.call (.drop i)).2 = b.setInbox i ⟨[], true⟩ := by
  cases h : b.inboxes[i]? with
  | none =>
    have out : b.inboxes.length ≤ i := List.getElem?_eq_none_iff.1 h
    simp only [call, drop, h, Option.map_none, setInbox, List.set_eq_of_length_le out]
  | some inbox => simp only [call, drop, h, Option.map_some]

/-! ## A bus in order -/

/-- The bus is open, and its list has no subscription twice and every one that is in use. -/
structure Tidy (b : Broadcast μ) : Prop where
  isOpen : b.state = .open
  nodup : b.listed.Nodup
  bounded : ∀ i ∈ b.listed, i < b.inboxes.length
  complete : ∀ i, b.isLive i = true → i ∈ b.listed

theorem tidy_new : (new : Broadcast μ).Tidy := ⟨rfl, .nil, nofun, nofun⟩

theorem Tidy.holds_iff (h : b.Tidy) : b.Holds i queue ↔ b.inboxes[i]? = some ⟨queue, false⟩ := by
  refine ⟨Holds.inbox, fun hi => ⟨h.isOpen, ?_, hi⟩⟩
  exact List.contains_iff_mem.2 (h.complete i (isLive_iff.2 ⟨queue, hi⟩))

theorem Tidy.subscribe (h : b.Tidy) : (b.call .subscribe).2 =
    { b with inboxes := b.inboxes ++ [⟨[], false⟩], listed := b.listed ++ [b.inboxes.length] } := by
  simp only [call, Broadcast.subscribe, h.isOpen]

theorem Tidy.publish (h : b.Tidy) (message : μ) : b.call (.publish message) = (.published (.ok ()),
    { b with
      inboxes := b.inboxes.zipIdx.map fun p =>
        if b.listed.contains p.2 then push p.1 message else p.1
      listed := b.listed.filter b.isLive }) := by
  simp only [call, Broadcast.publish, h.isOpen]

theorem Tidy.getElem?_publish (h : b.Tidy) (message : μ) (i : Nat) :
    (b.call (.publish message)).2.inboxes[i]? =
      b.inboxes[i]?.map fun inbox => if b.listed.contains i then push inbox message else inbox := by
  rw [h.publish]
  show (b.inboxes.zipIdx.map _)[i]? = _
  rw [List.getElem?_map, List.getElem?_zipIdx, Option.map_map]
  simp only [Function.comp_def, Nat.zero_add]

theorem isDropped_push (inbox : Inbox μ) (message : μ) :
    (push inbox message).isDropped = inbox.isDropped := by
  unfold push
  split
  · rfl
  · rfl

theorem isLive_eq (b : Broadcast μ) (i : Nat) :
    b.isLive i = (b.inboxes[i]?.map fun inbox => !inbox.isDropped).getD false := by
  unfold isLive
  cases b.inboxes[i]? with
  | none => rfl
  | some inbox => rfl

theorem Takes.isLive (h : Takes b i c) (j : Nat) : (b.call c).2.isLive j = b.isLive j := by
  cases h with
  | none after taken => rw [after]
  | some front rest h after taken =>
    rw [after, isLive_eq, isLive_eq, getElem?_setInbox]
    by_cases e : i = j
    · subst e
      rw [if_pos rfl, h]
      rfl
    · rw [if_neg e]

/-- Who is there after a call: who was, unless the call drops it, and who comes with it. -/
theorem Tidy.isLive_call_iff (h : b.Tidy) (c : Call μ) (i : Nat) : (b.call c).2.isLive i = true ↔
    (b.isLive i = true ∧ c ≠ .drop i) ∨ (c = .subscribe ∧ i = b.inboxes.length) := by
  cases c with
  | subscribe =>
    rw [h.subscribe, isLive_eq, isLive_eq, List.getElem?_append]
    by_cases lt : i < b.inboxes.length
    · simp [lt, Nat.ne_of_lt lt]
    · by_cases e : i = b.inboxes.length
      · simp [e]
      · have gt : i - b.inboxes.length ≠ 0 := by omega
        simp [lt, e, gt]
  | publish message =>
    rw [isLive_eq, h.getElem?_publish, isLive_eq, Option.map_map]
    have same : ((fun inbox : Inbox μ => !inbox.isDropped) ∘ fun inbox =>
        if b.listed.contains i then push inbox message else inbox) =
          fun inbox => !inbox.isDropped := by
      funext inbox
      show (!(if b.listed.contains i then push inbox message else inbox).isDropped) =
          !inbox.isDropped
      split
      · rw [isDropped_push]
      · rfl
    rw [same]
    simp
  | drop j =>
    rw [call_drop, isLive_eq, isLive_eq, getElem?_setInbox]
    by_cases e : j = i
    · subst e
      cases b.inboxes[j]? <;> simp
    · simp [e]
  | receive j => simp [(takes_receive b j).isLive i]
  | drain j => simp [(takes_drain b j).isLive i]

theorem Takes.frame (h : Takes b i c) :
    (b.call c).2.state = b.state ∧ (b.call c).2.listed = b.listed ∧
    (b.call c).2.inboxes.length = b.inboxes.length := by
  cases h with
  | none after taken => rw [after]; exact ⟨rfl, rfl, rfl⟩
  | some front rest h after taken =>
    rw [after]
    exact ⟨rfl, rfl, List.length_set⟩

theorem Tidy.frame (h : b.Tidy) (c : Call μ) : (b.call c).2.state = .open ∧
    (b.call c).2.inboxes.length = b.inboxes.length + openings [c] ∧
      ((∃ message, c = .publish message ∧ (b.call c).2.listed = b.listed.filter b.isLive) ∨
        (messages [c] = [] ∧
          (b.call c).2.listed = b.listed ++ List.range' b.inboxes.length (openings [c]))) := by
  cases c with
  | subscribe =>
    rw [h.subscribe]
    exact ⟨h.isOpen, List.length_append, Or.inr ⟨rfl, rfl⟩⟩
  | publish message =>
    rw [h.publish]
    refine ⟨h.isOpen, ?_, Or.inl ⟨message, rfl, rfl⟩⟩
    show (b.inboxes.zipIdx.map _).length = _
    rw [List.length_map, List.length_zipIdx]
    rfl
  | drop j =>
    rw [call_drop]
    exact ⟨h.isOpen, List.length_set, Or.inr ⟨rfl, (List.append_nil _).symm⟩⟩
  | receive j =>
    obtain ⟨h1, h2, h3⟩ := (takes_receive b j).frame
    exact ⟨h1.trans h.isOpen, h3, Or.inr ⟨rfl, h2.trans (List.append_nil _).symm⟩⟩
  | drain j =>
    obtain ⟨h1, h2, h3⟩ := (takes_drain b j).frame
    exact ⟨h1.trans h.isOpen, h3, Or.inr ⟨rfl, h2.trans (List.append_nil _).symm⟩⟩

theorem Tidy.call (h : b.Tidy) (c : Call μ) : (b.call c).2.Tidy := by
  obtain ⟨h1, h2, ⟨message, rfl, h3⟩ | ⟨h3, h4⟩⟩ := h.frame c
  · refine ⟨h1, ?_, fun i hi => ?_, fun i hi => ?_⟩
    · rw [h3]
      exact h.nodup.filter _
    · rw [h3] at hi
      rw [h2]
      exact Nat.lt_add_right _ (h.bounded i (List.mem_filter.1 hi).1)
    · obtain ⟨hl, -⟩ | ⟨hc, -⟩ := (h.isLive_call_iff _ i).1 hi
      · rw [h3]
        exact List.mem_filter.2 ⟨h.complete i hl, hl⟩
      · cases hc
  · refine ⟨h1, ?_, fun i hi => ?_, fun i hi => ?_⟩
    · rw [h4]
      refine List.nodup_append.2 ⟨h.nodup, List.nodup_range', fun i hi j hj e => ?_⟩
      have lt := h.bounded i hi
      have ge := (List.mem_range'_1.1 hj).1
      omega
    · rw [h4] at hi
      rw [h2]
      rcases List.mem_append.1 hi with hi | hi
      · exact Nat.lt_add_right _ (h.bounded i hi)
      · exact (List.mem_range'_1.1 hi).2
    · rw [h4]
      obtain ⟨hl, -⟩ | ⟨rfl, rfl⟩ := (h.isLive_call_iff c i).1 hi
      · exact List.mem_append_left _ (h.complete i hl)
      · exact List.mem_append_right _ List.mem_cons_self

theorem Tidy.run (h : b.Tidy) (cs : List (Call μ)) : (b.run cs).Tidy := by
  induction cs generalizing b with
  | nil => exact h
  | cons c cs ih => exact ih (h.call c)

/-! ## Messages -/

theorem Takes.holds (h : Takes b i c) (hn : (b.call c).2.Tidy) (hq : b.Holds j queue) :
    ∃ rest, (b.call c).2.Holds j rest ∧ (b.call c).1.taken j c ++ rest = queue := by
  cases h with
  | none after taken =>
    rw [after, taken]
    exact ⟨queue, hq, rfl⟩
  | some front rest h after taken =>
    rw [taken]
    by_cases e : i = j
    · subst e
      cases h.symm.trans hq.inbox
      refine ⟨rest, hn.holds_iff.2 ?_, by rw [if_pos rfl]⟩
      rw [after, getElem?_setInbox, if_pos rfl, h]
      rfl
    · refine ⟨queue, hn.holds_iff.2 ?_, by rw [if_neg e]; rfl⟩
      rw [after, getElem?_setInbox, if_neg e]
      exact hq.inbox

/-- A call leaves every subscription that it does not drop with what it had, less what it takes, and
with what is published. -/
theorem Tidy.holds_call (h : b.Tidy) (hq : b.Holds i queue) (hc : c ≠ .drop i) :
    ∃ rest, (b.call c).2.Holds i rest ∧ (b.call c).1.taken i c ++ rest = queue ++ messages [c] := by
  have next := h.call c
  cases c with
  | subscribe =>
    refine ⟨queue, next.holds_iff.2 ?_, (List.append_nil queue).symm⟩
    rw [h.subscribe]
    obtain ⟨lt, -⟩ := List.getElem?_eq_some_iff.1 hq.inbox
    exact (List.getElem?_append_left lt).trans hq.inbox
  | publish message =>
    refine ⟨queue ++ [message], next.holds_iff.2 ?_, rfl⟩
    rw [h.getElem?_publish, hq.inbox, Option.map_some, if_pos hq.listed]
    rfl
  | drop j =>
    have e : j ≠ i := fun e => hc (congrArg _ e)
    refine ⟨queue, next.holds_iff.2 ?_, (List.append_nil queue).symm⟩
    rw [call_drop, getElem?_setInbox, if_neg e]
    exact hq.inbox
  | receive j =>
    rw [show messages [Call.receive (μ := μ) j] = [] from rfl, List.append_nil]
    exact (takes_receive b j).holds next hq
  | drain j =>
    rw [show messages [Call.drain (μ := μ) j] = [] from rfl, List.append_nil]
    exact (takes_drain b j).holds next hq

theorem openings_cons (c : Call μ) (cs : List (Call μ)) :
    openings (c :: cs) = openings [c] + openings cs := by
  cases c with
  | subscribe => exact Nat.add_comm (openings cs) 1
  | _ => exact (Nat.zero_add _).symm

theorem messages_cons (c : Call μ) (cs : List (Call μ)) :
    messages (c :: cs) = messages [c] ++ messages cs := by
  cases c <;> rfl

theorem Tidy.holds_run (h : b.Tidy) (hq : b.Holds i queue) {cs : List (Call μ)}
    (hc : .drop i ∉ cs) :
    ∃ waiting, (b.run cs).Holds i waiting ∧ b.received i cs ++ waiting = queue ++ messages cs := by
  induction cs generalizing b queue with
  | nil => exact ⟨queue, hq, (List.append_nil queue).symm⟩
  | cons c cs ih =>
    obtain ⟨h1, h2⟩ := not_or.1 (mt List.mem_cons.2 hc)
    obtain ⟨rest, hr, e1⟩ := h.holds_call hq (Ne.symm h1)
    obtain ⟨waiting, hw, e2⟩ := ih (h.call c) hr h2
    refine ⟨waiting, hw, ?_⟩
    show ((b.call c).1.taken i c ++ (b.call c).2.received i cs) ++ waiting = _
    rw [List.append_assoc, e2, ← List.append_assoc, e1, List.append_assoc, ← messages_cons]

theorem Takes.taken_eq_nil (h : Takes b i c) (hj : b.inboxes.length ≤ j) :
    (b.call c).1.taken j c = [] := by
  cases h with
  | none after taken => exact taken j
  | some front rest h after taken =>
    obtain ⟨lt, -⟩ := List.getElem?_eq_some_iff.1 h
    rw [taken, if_neg (by omega)]

/-- A subscription that is still to be made receives nothing. -/
theorem Tidy.received_eq_nil (h : b.Tidy) {cs : List (Call μ)}
    (hi : b.inboxes.length + openings cs ≤ i) : b.received i cs = [] := by
  induction cs generalizing b with
  | nil => rfl
  | cons c cs ih =>
    rw [openings_cons] at hi
    obtain ⟨-, h2, -⟩ := h.frame c
    have s1 : (b.call c).2.received i cs = [] := ih (h.call c) (by omega)
    have s2 : (b.call c).1.taken i c = [] := by
      cases c with
      | receive j => exact (takes_receive b j).taken_eq_nil (by omega)
      | drain j => exact (takes_drain b j).taken_eq_nil (by omega)
      | _ => rfl
    show (b.call c).1.taken i c ++ (b.call c).2.received i cs = []
    rw [s1, s2]
    rfl

/-! ## Runs -/

theorem run_append (b : Broadcast μ) (cs ds : List (Call μ)) :
    b.run (cs ++ ds) = (b.run cs).run ds := by
  induction cs generalizing b with
  | nil => rfl
  | cons c cs ih => exact ih (b.call c).2

theorem received_append (b : Broadcast μ) (i : Nat) (cs ds : List (Call μ)) :
    b.received i (cs ++ ds) = b.received i cs ++ (b.run cs).received i ds := by
  induction cs generalizing b with
  | nil => rfl
  | cons c cs ih =>
    show (b.call c).1.taken i c ++ (b.call c).2.received i (cs ++ ds) = _
    rw [ih, ← List.append_assoc]
    rfl

theorem Tidy.length_run (h : b.Tidy) (cs : List (Call μ)) :
    (b.run cs).inboxes.length = b.inboxes.length + openings cs := by
  induction cs generalizing b with
  | nil => rfl
  | cons c cs ih =>
    obtain ⟨-, h2, -⟩ := h.frame c
    show ((b.call c).2.run cs).inboxes.length = _
    rw [ih (h.call c), h2, openings_cons c cs, Nat.add_assoc]

/-- Until the next publication the list grows by one with every subscription. -/
theorem Tidy.length_listed_run (h : b.Tidy) {cs : List (Call μ)} (hm : messages cs = []) :
    (b.run cs).listed.length = b.listed.length + openings cs := by
  induction cs generalizing b with
  | nil => rfl
  | cons c cs ih =>
    rw [messages_cons, List.append_eq_nil_iff] at hm
    obtain ⟨-, -, ⟨message, rfl, -⟩ | ⟨-, h3⟩⟩ := h.frame c
    · cases hm.1
    · show ((b.call c).2.run cs).listed.length = _
      rw [ih (h.call c) hm.2, h3, List.length_append, List.length_range',
        openings_cons c cs, Nat.add_assoc]

theorem openings_append (cs ds : List (Call μ)) :
    openings (cs ++ ds) = openings cs + openings ds := by
  induction cs with
  | nil => exact (Nat.zero_add _).symm
  | cons c cs ih => rw [List.cons_append, openings_cons c, ih, openings_cons c cs, Nat.add_assoc]

theorem keeps_append_singleton_iff {past : List (Call μ)} : Keeps (past ++ [c]) i ↔
    (Keeps past i ∧ c ≠ .drop i) ∨ (c = .subscribe ∧ i = openings past) := by
  constructor
  · rintro ⟨before, after, h, rfl, hd⟩
    rcases List.eq_nil_or_concat after with rfl | ⟨after, d, rfl⟩
    · obtain ⟨rfl, hc⟩ := List.append_inj' h rfl
      cases hc
      exact Or.inr ⟨rfl, rfl⟩
    · rw [List.concat_eq_append] at h hd
      have h' : past ++ [c] = (before ++ .subscribe :: after) ++ [d] := by simpa using h
      obtain ⟨rfl, hc⟩ := List.append_inj' h' rfl
      cases hc
      refine Or.inl ⟨⟨before, after, rfl, rfl, fun hm => hd (List.mem_append_left _ hm)⟩, ?_⟩
      rintro rfl
      exact hd (List.mem_append_right _ List.mem_cons_self)
  · rintro (⟨⟨before, after, rfl, rfl, hd⟩, hc⟩ | ⟨rfl, rfl⟩)
    · refine ⟨before, after ++ [c], by simp, rfl, fun hm => ?_⟩
      rcases List.mem_append.1 hm with hm | hm
      · exact hd hm
      · exact hc (List.mem_singleton.1 hm).symm
    · exact ⟨past, [], rfl, rfl, List.not_mem_nil⟩

/-- Those there are the ones that the calls so far have kept. -/
theorem Tidy.isLive_run_iff (h : b.Tidy) {past : List (Call μ)}
    (hl : b.inboxes.length = openings past) (hk : ∀ i, b.isLive i = true ↔ Keeps past i)
    (cs : List (Call μ)) (i : Nat) :
    (b.run cs).isLive i = true ↔ Keeps (past ++ cs) i := by
  induction cs generalizing b past with
  | nil =>
    rw [List.append_nil]
    exact hk i
  | cons c cs ih =>
    obtain ⟨-, h2, -⟩ := h.frame c
    have hl' : (b.call c).2.inboxes.length = openings (past ++ [c]) := by
      rw [h2, hl, openings_append]
    have hk' : ∀ i, (b.call c).2.isLive i = true ↔ Keeps (past ++ [c]) i := fun i => by
      rw [h.isLive_call_iff, keeps_append_singleton_iff, hk, hl]
    rw [List.append_cons]
    exact ih (h.call c) hl' hk'

theorem isLive_run_new_iff (cs : List (Call μ)) (i : Nat) :
    (new.run cs).isLive i = true ↔ Keeps cs i := by
  have none : ∀ j, (new : Broadcast μ).isLive j = true ↔ Keeps ([] : List (Call μ)) j := fun j => by
    refine iff_of_false nofun ?_
    rintro ⟨before, after, h, -⟩
    exact absurd h (by simp)
  exact tidy_new.isLive_run_iff rfl none cs i

/-! ## One pass over the list -/

theorem send?_of_isLive (h : b.isLive i = true) (message : μ) :
    ∃ queue, b.inboxes[i]? = some ⟨queue, false⟩ ∧
    send? message i b.inboxes = some (b.setInbox i ⟨queue ++ [message], false⟩).inboxes := by
  obtain ⟨queue, hq⟩ := isLive_iff.1 h
  exact ⟨queue, hq, by simp [send?, hq, setInbox]⟩

theorem send?_of_not_isLive (h : b.isLive i = false) (message : μ) :
    send? message i b.inboxes = none := by
  unfold isLive at h
  unfold send?
  cases hi : b.inboxes[i]? with
  | none => rfl
  | some inbox =>
    rw [hi] at h
    have dropped : inbox.isDropped = true := by simpa using h
    dsimp only
    rw [if_pos dropped]

/-- A dropped inbox takes nothing, on the list or off it. -/
theorem map_push_of_not_isLive (h : b.isLive i = false) (message : μ) (listed : Bool) :
    (b.inboxes[i]?.map fun inbox => if listed then push inbox message else inbox) =
      b.inboxes[i]? := by
  unfold isLive at h
  cases hi : b.inboxes[i]? with
  | none => rfl
  | some inbox =>
    rw [hi] at h
    have dropped : inbox.isDropped = true := by simpa using h
    simp [push, dropped]

theorem isLive_setInbox (h : b.isLive i = true) (queue : List μ) (j : Nat) :
    (b.setInbox i ⟨queue, false⟩).isLive j = b.isLive j := by
  rw [isLive_eq, isLive_eq, getElem?_setInbox]
  by_cases e : i = j
  · subst e
    obtain ⟨found, hf⟩ := isLive_iff.1 h
    rw [if_pos rfl, hf]
    rfl
  · rw [if_neg e]

/-- The pass sends one copy to each subscription it comes by that is in use, and keeps
just those on the list. -/
theorem retain_eq (b : Broadcast μ) (message : μ) {listed : List Nat} (h : listed.Nodup) :
    (retain message listed b.inboxes).1 = listed.filter b.isLive ∧
      ∀ j : Nat, (retain message listed b.inboxes).2[j]? =
        b.inboxes[j]?.map fun inbox => if listed.contains j then push inbox message else inbox := by
  induction listed generalizing b with
  | nil => exact ⟨rfl, fun j => by simp [retain]⟩
  | cons i rest ih =>
    obtain ⟨hi, hr⟩ := List.nodup_cons.1 h
    cases hl : b.isLive i with
    | false =>
      obtain ⟨h1, h2⟩ := ih b hr
      rw [retain, send?_of_not_isLive hl]
      refine ⟨?_, fun j => ?_⟩
      · rw [List.filter_cons_of_neg (by simp [hl])]
        exact h1
      · rw [h2]
        by_cases e : j = i
        · subst e
          rw [map_push_of_not_isLive hl, map_push_of_not_isLive hl]
        · simp [e]
    | true =>
      obtain ⟨queue, hq, hs⟩ := send?_of_isLive hl message
      obtain ⟨h1, h2⟩ := ih (b.setInbox i ⟨queue ++ [message], false⟩) hr
      rw [retain, hs]
      refine ⟨?_, fun j => ?_⟩
      · rw [List.filter_cons_of_pos hl,
          ← List.filter_congr fun j _ => isLive_setInbox hl (queue ++ [message]) j]
        exact congrArg _ h1
      · refine (h2 j).trans ?_
        rw [getElem?_setInbox]
        by_cases e : i = j
        · subst e
          simp [hq, hi, push]
        · simp [e, Ne.symm e]

theorem Tidy.publish_eq_passOn (h : b.Tidy) (message : μ) :
    b.publish message = .ok (b.passOn message) := by
  obtain ⟨h1, h2⟩ := retain_eq b message h.nodup
  have queues :
      (b.inboxes.zipIdx.map fun p => if b.listed.contains p.2 then push p.1 message else p.1) =
      (retain message b.listed b.inboxes).2 := by
    refine List.ext_getElem? fun j => ?_
    have s := h.getElem?_publish message j
    rw [h.publish] at s
    exact s.trans (h2 j).symm
  simp only [Broadcast.publish, h.isOpen, passOn, h1, queues]

/-! ## Delivery -/

/-- What the calls of a new bus bring about. -/
structure Delivers (cs : List (Call μ)) : Prop where
  /-- Every call to subscribe gets the next number. -/
  numbered : ∀ before after, cs = before ++ .subscribe :: after →
    ((new.run before).call .subscribe).1 = .subscribed (some (openings before))
  /-- As long as a subscription is not dropped, it has all that was published since it was made:
  received first, then waiting. -/
  inbox : ∀ before after, cs = before ++ .subscribe :: after → .drop (openings before) ∉ after →
    ∃ waiting, (new.run cs).inbox? (openings before) = some ⟨waiting, false⟩ ∧
      new.received (openings before) cs ++ waiting = messages after
  /-- Every publication succeeds, and is one pass over the list. -/
  published : ∀ before message after, cs = before ++ .publish message :: after →
    (new.run before).call (.publish message) =
      (.published (.ok ()), (new.run before).passOn message)
  /-- A publication leaves the subscriptions in use on the list, each once,
  and later ones join them. -/
  counted : ∀ before message after, cs = before ++ .publish message :: after → messages after = [] →
    ∃ live : List Nat, live.Nodup ∧ (∀ i, i ∈ live ↔ Keeps before i) ∧
      (new.run cs).count = some (live.length + openings after)

theorem Tidy.count (h : b.Tidy) : b.count = some b.listed.length := by
  simp only [Broadcast.count, h.isOpen]

theorem length_run_new (cs : List (Call μ)) :
    ((new : Broadcast μ).run cs).inboxes.length = openings cs := by
  rw [tidy_new.length_run]
  exact Nat.zero_add _

theorem delivers (cs : List (Call μ)) : Delivers cs where
  numbered before after _ := by
    have h := (tidy_new : (new : Broadcast μ).Tidy).run before
    simp only [call, Broadcast.subscribe, h.isOpen, length_run_new]
  inbox := by
    rintro before after rfl hd
    have h := (tidy_new : (new : Broadcast μ).Tidy).run before
    have hn := h.call .subscribe
    have hq : ((new.run before).call .subscribe).2.Holds (openings before) [] := by
      refine hn.holds_iff.2 ?_
      rw [h.subscribe, ← length_run_new before]
      exact List.getElem?_concat_length
    obtain ⟨waiting, hw, e⟩ := hn.holds_run hq hd
    refine ⟨waiting, inbox?_eq_some_iff.2 ⟨?_, rfl⟩, ?_⟩
    · rw [run_append]
      exact hw.inbox
    · have early : new.received (openings before) before = ([] : List μ) :=
        tidy_new.received_eq_nil (Nat.le_of_eq (Nat.zero_add _))
      rw [received_append, early]
      exact e
  published before message after _ := by
    have h := (tidy_new : (new : Broadcast μ).Tidy).run before
    simp only [call, h.publish_eq_passOn]
  counted := by
    rintro before message after rfl hm
    have h := (tidy_new : (new : Broadcast μ).Tidy).run before
    have hn := h.call (.publish message)
    refine ⟨(new.run before).listed.filter (new.run before).isLive,
      h.nodup.filter _, fun i => ?_, ?_⟩
    · rw [List.mem_filter, isLive_run_new_iff]
      refine ⟨And.right, fun hk => ⟨h.complete i ?_, hk⟩⟩
      exact (isLive_run_new_iff before i).2 hk
    · have pruned : ((new.run before).call (.publish message)).2.listed =
          (new.run before).listed.filter (new.run before).isLive := by rw [h.publish]
      rw [run_append]
      show (((new.run before).call (.publish message)).2.run after).count = _
      rw [(hn.run after).count, hn.length_listed_run hm, pruned]

end Stockroom.Broadcast
