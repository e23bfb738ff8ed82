import Stockroom.Retry.Account
import Stockroom.Retry.Loop

/-! The bounds of retries. Each pass of the loop either ends the run or uses up one of the attempts
that are left, so the loop ends and its counter stays below its limit. That holds in any
surroundings. What an operation with a state of its own was told, and how the run came to its end,
is read off an account that is kept beside that state and does not touch it. -/
namespace Stockroom.Retry
set_option autoImplicit false

/-! ## The loop -/

section Loop

variable {m : Type → Type} [Monad m] [LawfulMonad m] {ε α : Type} {s : Surroundings m}
  {policy : RetryPolicy} {operation : Nat → m (Except ε α)} {isRetryable : ε → Bool}

/-- Broken off no earlier than after the attempts that are left, the loop is the run of these. -/
theorem loop_eq_runFrom {passes left counter : Nat} (fits : policy.attempts ≤ counterMax)
    (h : counter + left + 1 = policy.attempts) (enough : left < passes) :
    loop s policy operation isRetryable passes counter =
      some <$> runFrom s policy operation isRetryable left (counter + 1) := by
  induction passes generalizing left counter with
  | zero => cases enough
  | succ passes ih =>
    have room : ¬counterMax ≤ counter := by omega
    rw [loop, runFrom, if_neg room, map_bind]
    refine bind_congr fun r => ?_
    cases r with
    | ok a =>
      by_cases again : 1 < counter + 1
      · simp only [if_pos again, map_bind, map_pure]
      · simp only [if_neg again, map_pure]
    | error e =>
      cases hr : isRetryable e with
      | false => simp only [hr, Bool.not_false, if_true, map_pure]
      | true =>
        cases left with
        | zero =>
          have last : policy.attempts ≤ counter + 1 := by omega
          simp only [hr, Bool.not_true, Bool.false_eq_true, if_false, if_pos last, map_pure]
        | succ left =>
          have more : ¬policy.attempts ≤ counter + 1 := by omega
          have rest : loop s policy operation isRetryable passes (counter + 1) =
              some <$> runFrom s policy operation isRetryable left (counter + 1 + 1) :=
            ih (by omega) (by omega)
          simp only [hr, Bool.not_true, Bool.false_eq_true, if_false, if_neg more, map_bind, rest]
          refine bind_congr fun wait => bind_congr fun reached => ?_
          cases reached with
          | true => simp only [if_true, map_pure]
          | false => simp only [Bool.false_eq_true, if_false, map_bind]

end Loop

variable {σ ε α β γ : Type} {s : Surroundings (StateM σ)} {policy : RetryPolicy}
  {operation : Nat → StateM σ (Except ε α)} {isRetryable : ε → Bool} {a b c : Account σ ε α}
  {left attempt k : Nat}

open Account (kept keeping)

/-! ## The account -/

/-- A program with an account does to the state what it does without. -/
def Forgets (p : StateM (Account σ ε α) β) (q : StateM σ β) : Prop :=
  ∀ a, q a.state = ((p a).1, (p a).2.state)

theorem forgets_pure (x : β) : Forgets (pure x : StateM (Account σ ε α) β) (pure x) := fun _ => rfl

theorem Forgets.bind {p : StateM (Account σ ε α) β} {q : StateM σ β}
    {f : β → StateM (Account σ ε α) γ} {g : β → StateM σ γ} (h : Forgets p q)
    (hf : ∀ x, Forgets (f x) (g x)) : Forgets (p >>= f) (q >>= g) := by
  intro a
  show g (q a.state).1 (q a.state).2 = _
  rw [h a]
  exact hf _ _

theorem forgets_reachesDeadline (wait : Nat) :
    Forgets (reachesDeadline (keeping (ε := ε) (α := α) s) policy wait)
      (reachesDeadline s policy wait) := by
  unfold reachesDeadline
  cases policy.deadline with
  | none => exact forgets_pure false
  | some d => exact Forgets.bind (fun _ => rfl) fun _ => forgets_pure _

theorem forgets_runFrom :
    Forgets (runFrom (keeping s) policy (kept operation) isRetryable left attempt)
    (runFrom s policy operation isRetryable left attempt) := by
  induction left using Nat.strongRecOn generalizing attempt with
  | _ left ih =>
    rw [runFrom, runFrom]
    refine Forgets.bind (fun _ => rfl) fun r => ?_
    cases r with
    | ok x =>
      dsimp only
      split
      · exact Forgets.bind (fun _ => rfl) fun _ => forgets_pure _
      · exact forgets_pure _
    | error e =>
      dsimp only
      split
      · exact forgets_pure _
      · cases left with
        | zero => exact forgets_pure _
        | succ left =>
          refine Forgets.bind (fun _ => rfl) fun wait =>
            (forgets_reachesDeadline _).bind fun reached => ?_
          cases reached with
          | true => exact forgets_pure _
          | false =>
            refine Forgets.bind (fun _ => rfl) fun _ => Forgets.bind (fun _ => rfl) fun _ => ?_
            exact ih left (Nat.lt_succ_self left)

/-! ## The verdict -/

/-- What a run answers after so many attempts, of which the last came out as given. -/
def verdict (isRetryable : ε → Bool) (attempts : Nat) : Except ε α → Except (Failure ε) α
  | .ok x => .ok x
  | .error e => if isRetryable e then .error (.exhausted attempts e) else .error (.fatal e)

variable {n : Nat} {r : Except ε α} {e : ε}

theorem verdict_eq_ok_iff {x : α} : verdict isRetryable n r = .ok x ↔ r = .ok x := by
  cases r with
  | ok y => simp [verdict]
  | error f => cases hf : isRetryable f <;> simp [verdict, hf]

theorem verdict_eq_fatal_iff :
    verdict isRetryable n r = .error (.fatal e) ↔ r = .error e ∧ isRetryable e = false := by
  cases r with
  | ok y => simp [verdict]
  | error f =>
    cases hf : isRetryable f with
    | false =>
      simp only [verdict, hf, Bool.false_eq_true, if_false, Except.error.injEq, Failure.fatal.injEq]
      exact (and_iff_left_of_imp fun same => same ▸ hf).symm
    | true =>
      simp only [verdict, hf, if_true, Except.error.injEq, reduceCtorEq, false_iff, not_and]
      rintro rfl
      simp [hf]

theorem verdict_eq_exhausted_iff : verdict isRetryable n r = .error (.exhausted k e) ↔
    k = n ∧ r = .error e ∧ isRetryable e = true := by
  cases r with
  | ok y => simp [verdict]
  | error f =>
    cases hf : isRetryable f with
    | false =>
      simp only [verdict, hf, Bool.false_eq_true, if_false, Except.error.injEq,
        reduceCtorEq, false_iff, not_and]
      rintro - rfl
      simp [hf]
    | true =>
      simp only [verdict, hf, if_true, Except.error.injEq,
        Failure.exhausted.injEq, eq_comm (a := n)]
      exact and_congr_right fun _ => (and_iff_left_of_imp fun same => same ▸ hf).symm

/-! ## The attempts -/

/-- What has been written down from `a` to `b`. -/
structure Adds (calls : List (Nat × Except ε α)) (drawn read : List Nat)
    (a b : Account σ ε α) : Prop where
  calls : b.calls = a.calls ++ calls
  drawn : b.drawn = a.drawn ++ drawn
  read : b.read = a.read ++ read

theorem adds_nothing (a : Account σ ε α) (state : σ) : Adds [] [] [] a { a with state := state } :=
  ⟨(List.append_nil _).symm, (List.append_nil _).symm, (List.append_nil _).symm⟩

theorem Adds.trans {calls calls' : List (Nat × Except ε α)} {drawn drawn' read read' : List Nat}
    (h : Adds calls drawn read a b) (h' : Adds calls' drawn' read' b c) :
    Adds (calls ++ calls') (drawn ++ drawn') (read ++ read') a c where
  calls := by rw [h'.calls, h.calls, List.append_assoc]
  drawn := by rw [h'.drawn, h.drawn, List.append_assoc]
  read := by rw [h'.read, h.read, List.append_assoc]

/-- After `k` attempts that all failed in a way that trying again may mend. -/
structure Tried (policy : RetryPolicy) (isRetryable : ε → Bool) (k : Nat)
    (a : Account σ ε α) : Prop where
  numbered : a.calls.map Prod.fst = List.range' 1 k
  retried : ∀ call ∈ a.calls, ∃ e, call.2 = .error e ∧ isRetryable e = true
  drawn : a.drawn.length = k
  read : policy.deadline.isSome = true → a.read.length = k

/-- There is a deadline, and the time and the wait that was drawn after `n`
attempts together reach it. -/
def Late (policy : RetryPolicy) (n : Nat) (a : Account σ ε α) : Prop :=
  ∃ d ∈ policy.deadline, ∃ time wait, a.read[n - 1]? = some time ∧
    a.drawn[n - 1]? = some wait ∧ d.nanos ≤ time + wait

/-- How a run ends after `n` attempts. -/
structure Bounded (policy : RetryPolicy) (isRetryable : ε → Bool) (n : Nat)
    (result : Except (Failure ε) α) (a : Account σ ε α) : Prop where
  pos : 1 ≤ n
  le : n ≤ max 1 policy.maxAttempts
  numbered : a.calls.map Prod.fst = List.range' 1 n
  retried : ∀ call ∈ a.calls.dropLast, ∃ e, call.2 = .error e ∧ isRetryable e = true
  ok_iff : ∀ x, result = .ok x ↔ a.outcome? = some (.ok x)
  fatal_iff : ∀ e, result = .error (.fatal e) ↔ a.outcome? = some (.error e) ∧ isRetryable e = false
  exhausted_iff : ∀ k e, result = .error (.exhausted k e) ↔
    k = n ∧ a.outcome? = some (.error e) ∧ isRetryable e = true
  early : ∀ k e, result = .error (.exhausted k e) → n < max 1 policy.maxAttempts → Late policy n a

theorem tried_start (state : σ) :
    Tried policy isRetryable 0 (Account.start state : Account σ ε α) :=
  ⟨rfl, fun _ h => absurd h List.not_mem_nil, rfl, fun _ => rfl⟩

theorem range'_one_succ (k : Nat) : List.range' 1 (k + 1) = List.range' 1 k ++ [k + 1] := by
  rw [List.range'_concat, Nat.one_mul, Nat.add_comm 1 k]

theorem Tried.succ {wait : Nat} {times : List Nat} (h : Tried policy isRetryable k a)
    (hb : Adds [(k + 1, .error e)] [wait] times a b) (hr : isRetryable e = true)
    (ht : policy.deadline.isSome = true → times.length = 1) :
    Tried policy isRetryable (k + 1) b where
  numbered := by
    rw [hb.calls, List.map_append, h.numbered, range'_one_succ]
    rfl
  retried call hm := by
    rw [hb.calls, List.mem_append, List.mem_singleton] at hm
    rcases hm with hm | rfl
    · exact h.retried call hm
    · exact ⟨e, rfl, hr⟩
  drawn := by
    rw [hb.drawn, List.length_append, h.drawn]
    rfl
  read some := by rw [hb.read, List.length_append, h.read some, ht some]

theorem Tried.late {time wait : Nat} {d : Duration} (h : Tried policy isRetryable k a)
    {calls : List (Nat × Except ε α)} (hb : Adds calls [wait] [time] a b) (hd : d ∈ policy.deadline)
    (reach : d.nanos ≤ time + wait) : Late policy (k + 1) b := by
  have set : policy.deadline.isSome = true := Option.isSome_iff_exists.2 ⟨d, hd⟩
  refine ⟨d, hd, time, wait, ?_, ?_, reach⟩
  · rw [hb.read, Nat.add_sub_cancel, ← h.read set, List.getElem?_concat_length]
  · rw [hb.drawn, Nat.add_sub_cancel, ← h.drawn, List.getElem?_concat_length]

/-- One attempt more, and the run ends with it. -/
theorem Tried.bounded (h : Tried policy isRetryable k a) (hk : k < policy.attempts)
    {drawn read : List Nat} (hb : Adds [(k + 1, r)] drawn read a b) {result : Except (Failure ε) α}
    (hv : verdict isRetryable (k + 1) r = result)
    (early : ∀ i e, result = .error (.exhausted i e) →
      k + 1 < policy.attempts → Late policy (k + 1) b) :
    Bounded policy isRetryable (k + 1) result b := by
  have limit : policy.attempts = max 1 policy.maxAttempts := Nat.max_comm _ _
  have last : b.outcome? = some r := by
    rw [Account.outcome?, hb.calls, List.getLast?_concat]
    rfl
  rw [limit] at hk early
  refine ⟨Nat.succ_pos k, hk, ?_, ?_, fun x => ?_, fun e => ?_, fun i e => ?_, early⟩
  · rw [hb.calls, List.map_append, h.numbered, range'_one_succ]
    rfl
  · rw [hb.calls, List.dropLast_concat]
    exact h.retried
  · rw [last, Option.some_inj, ← hv, verdict_eq_ok_iff]
  · rw [last, Option.some_inj, ← hv, verdict_eq_fatal_iff]
  · rw [last, Option.some_inj, ← hv, verdict_eq_exhausted_iff]

/-! ## Runs -/

/-- What comes of a program from `a`. -/
def Leads {τ : Type} (p : StateM τ β) (a : τ) (post : β → τ → Prop) : Prop := post (p a).1 (p a).2

theorem Leads.bind {τ : Type} {p : StateM τ β} {f : β → StateM τ γ} {t : τ} {mid : β → τ → Prop}
    {post : γ → τ → Prop} (h : Leads p t mid) (hf : ∀ x t', mid x t' → Leads (f x) t' post) :
    Leads (p >>= f) t post :=
  hf _ _ h

theorem leads_kept (attempt : Nat) (a : Account σ ε α) :
    Leads (kept operation attempt) a fun r b => Adds [(attempt, r)] [] [] a b :=
  ⟨rfl, (List.append_nil _).symm, (List.append_nil _).symm⟩

theorem leads_draw (bound : Nat) (a : Account σ ε α) :
    Leads ((keeping s).draw bound) a fun wait b => Adds [] [wait.val] [] a b :=
  ⟨(List.append_nil _).symm, rfl, (List.append_nil _).symm⟩

theorem leads_note (entry : LogEntry) (a : Account σ ε α) :
    Leads ((keeping s).note entry) a fun _ b => Adds [] [] [] a b :=
  adds_nothing a _

theorem leads_wait (nanos : Nat) (a : Account σ ε α) :
    Leads ((keeping s).wait nanos) a fun _ b => Adds [] [] [] a b :=
  adds_nothing a _

theorem leads_reachesDeadline (wait : Nat) (a : Account σ ε α) :
    Leads (reachesDeadline (keeping s) policy wait) a fun reached b =>
      ∃ times, Adds [] [] times a b ∧
      (policy.deadline.isSome = true → times.length = 1) ∧
      (reached = true → ∃ d ∈ policy.deadline, ∃ time, times = [time] ∧ d.nanos ≤ time + wait) := by
  unfold reachesDeadline
  cases policy.deadline with
  | none => exact ⟨[], adds_nothing a _, nofun, nofun⟩
  | some d =>
    refine ⟨[(s.elapsed a.state).1], ⟨(List.append_nil _).symm, (List.append_nil _).symm, rfl⟩,
      fun _ => rfl, fun h => ?_⟩
    exact ⟨d, rfl, _, rfl, of_decide_eq_true h⟩

theorem leads_runFrom (h : Tried policy isRetryable k a) (hk : k + left + 1 = policy.attempts) :
    Leads (runFrom (keeping s) policy (kept operation) isRetryable left (k + 1)) a fun result b =>
      ∃ n, Bounded policy isRetryable n result b := by
  induction left using Nat.strongRecOn generalizing k a with
  | _ left ih =>
    have within : k < policy.attempts := by omega
    rw [runFrom]
    refine (leads_kept (k + 1) a).bind ?_
    rintro r b called
    cases r with
    | ok x =>
      have ends {c : Account σ ε α} (hc : Adds [(k + 1, .ok x)] [] [] a c) :
          ∃ n, Bounded policy isRetryable n (.ok x) c :=
        ⟨k + 1, h.bounded within hc rfl nofun⟩
      dsimp only
      split
      · exact (leads_note _ b).bind fun _ c noted => ends (called.trans noted)
      · exact ends called
    | error e =>
      dsimp only
      cases hr : isRetryable e with
      | false => exact ⟨k + 1, h.bounded within called (if_neg (Bool.eq_false_iff.1 hr)) nofun⟩
      | true =>
        have spent : verdict isRetryable (k + 1) (.error e : Except ε α) =
            .error (.exhausted (k + 1) e) := if_pos hr
        cases left with
        | zero =>
          refine ⟨k + 1, h.bounded within called spent fun _ _ _ more => ?_⟩
          omega
        | succ left =>
          refine (leads_draw _ b).bind ?_
          intro wait c drawn
          refine (leads_reachesDeadline _ c).bind ?_
          rintro reached d ⟨times, looked, once, late⟩
          have failed : Adds [(k + 1, .error e)] [wait.val] times a d :=
            called.trans (drawn.trans looked)
          cases reached with
          | true =>
            obtain ⟨deadline, set, time, rfl, reach⟩ := late rfl
            exact ⟨k + 1, h.bounded within failed spent fun _ _ _ _ => h.late failed set reach⟩
          | false =>
            refine (leads_note _ d).bind fun _ f noted => (leads_wait _ f).bind fun _ g waited => ?_
            have again : Adds [(k + 1, .error e)] [wait.val] (times ++ []) a g :=
              failed.trans (noted.trans waited)
            rw [List.append_nil] at again
            exact ih left (Nat.lt_succ_self left) (h.succ again hr once) (by omega)

/-- Whatever an operation does and its surroundings answer, the run ends as the bounds say, the loop
ends with it, and the account of it makes no difference to the state. -/
theorem bounded_run (s : Surroundings (StateM σ)) (policy : RetryPolicy)
    (operation : Nat → StateM σ (Except ε α)) (isRetryable : ε → Bool) (state : σ)
    (fits : policy.maxAttempts ≤ counterMax) :
    ∃ n result account,
      run s policy operation isRetryable state = (result, account.state) ∧
      run (keeping s) policy (kept operation) isRetryable (.start state) = (result, account) ∧
      (∀ passes, policy.attempts ≤ passes →
        loop (keeping s) policy (kept operation) isRetryable passes 0 (.start state) =
          (some result, account)) ∧
      Bounded policy isRetryable n result account := by
  have all : 0 + (policy.attempts - 1) + 1 = policy.attempts := by
    have s1 : 1 ≤ policy.attempts := Nat.le_max_right _ _
    omega
  have small : policy.attempts ≤ counterMax := Nat.max_le.2 ⟨fits, by decide⟩
  obtain ⟨n, bounded⟩ : ∃ n, Bounded policy isRetryable n _ _ :=
    leads_runFrom (tried_start state) all
  refine ⟨n, _, _, forgets_runFrom (.start state), rfl, fun passes enough => ?_, bounded⟩
  rw [loop_eq_runFrom small all (by omega)]
  rfl

/-- Surroundings in which every wait is over at once and no time goes by. -/
def still : Surroundings (StateM Unit) where
  draw _ := pure 0
  elapsed := pure 0
  wait _ := pure ()
  note _ := pure ()

/-- An operation that succeeds at the third attempt. -/
def third (attempt : Nat) : StateM Unit (Except String Nat) :=
  pure (if attempt < 3 then .error "busy" else .ok attempt)

theorem bounded_run_third :
    let policy : RetryPolicy := { RetryPolicy.standard with maxAttempts := counterMax }
    policy.maxAttempts ≤ counterMax ∧ ∃ n account,
      Bounded policy (fun _ => true) n (.ok 3) account ∧
      account.calls.map (fun call => (call.1, call.2.toOption)) =
        [(1, none), (2, none), (3, some 3)] ∧
      loop (keeping still) policy (kept third) (fun _ => true) counterMax 0 (.start ()) =
        (some (.ok 3), account) := by
  intro policy
  obtain ⟨n, result, account, -, ran, looped, bounded⟩ :=
    bounded_run still policy third (fun _ => true) () (Nat.le_refl _)
  have calls : (run (keeping still) policy (kept third) (fun _ => true) (.start ())).2.calls.map
      (fun call => (call.1, call.2.toOption)) = [(1, none), (2, none), (3, some 3)] := by
    decide +kernel
  have answer : (run (keeping still) policy (kept third) (fun _ => true)
      (.start ())).1.toOption = some 3 := by
    decide +kernel
  rw [ran] at answer calls
  cases result with
  | error e => cases answer
  | ok x =>
    cases answer
    exact ⟨Nat.le_refl _, n, account, bounded, calls, looped counterMax (by decide)⟩

end Stockroom.Retry
