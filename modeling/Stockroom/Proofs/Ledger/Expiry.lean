import Stockroom.Proofs.Ledger.Rivalry
import Stockroom.Proofs.Movement.Reclaim

/-! The expiry of one unit's holds among rivals. At a unit that nobody contests the first attempt
succeeds. At a contested one every swap is lost, until the attempts are spent. -/
namespace Stockroom
set_option autoImplicit false

namespace StockRecord

/-- What a sweep writes of a record. -/
def lapsed (r : StockRecord) (now : Timestamp) : List StockRecord :=
  if r.staleHolds now = [] then [] else [(r.swept now).atVersion (r.version + 1)]

variable {r : StockRecord} {now : Timestamp}

theorem lapsed_eq_nil_iff : r.lapsed now = [] ↔ r.overdue now = [] := by
  rw [overdue_eq, lapsed]
  split <;> simp_all

theorem sku_of_mem_lapsed {d : StockRecord} (h : d ∈ r.lapsed now) : d.sku = r.sku := by
  unfold lapsed at h
  split at h
  · cases h
  · rw [List.mem_singleton.1 h]
    exact sku_applyAll _ _

theorem Lawful.swept {sku : SkuCode} (h : r.Lawful sku) (now : Timestamp) :
    (r.swept now).Lawful sku where
  sku_eq := (sku_applyAll _ _).trans h.sku_eq
  isCreated := by
    have hc := isCreated_execute (execute_expire h.isCreated now)
    exact hc
  wellFormed := h.wellFormed.execute (execute_expire h.isCreated now)

theorem length_expiryEvents (r : StockRecord) (now : Timestamp) :
    (r.expiryEvents now).length = (r.staleHolds now).length :=
  List.length_map _

end StockRecord

namespace Ledger

open Program (Leads Logic leading)

variable {w : Rivalry} {contested : SkuCode → Bool} {now : Timestamp} {t t' t'' : Rivaled}
  {sku : SkuCode}

theorem Idle.leads {α : Type} {p : Program α} (hp : Idle p) (h : w.Spares contested)
    (hl : t.store.Lawful) :
    p.Leads w.answer t fun _ t' => Advances contested [] t t' :=
  hp.advances h hl

theorem idle_request {q : Request} (hq : ∀ reply, q.written? reply = none) :
    Idle (Program.request q) :=
  fun reply => ⟨(), hq reply, trivial⟩

theorem idle_publishAll (record : StockRecord) (events : List Event) :
    Idle (publishAll record events) := by
  let L : Logic Unit := Program.obedience fun _ q reply _ => q.written? reply = none
  have publishes : Publishes L record fun _ _ => True :=
    { naming := fun _ _ _ _ => True
      name := fun _ _ _ _ _ => ⟨(), rfl, trivial⟩
      offer := fun _ _ _ _ _ _ => ⟨(), rfl, trivial⟩
      passes := fun _ _ _ _ hq reply => ⟨(), hq.written? reply, trivial⟩ }
  exact publishes.holds events trivial

/-- What stands until something is written stands when a question is passed over. -/
theorem passes_leading (hw : w.Spares contested) {stand : Rivaled → Prop}
    (lawful : ∀ t, stand t → t.store.Lawful)
    (keep : ∀ t t', stand t → Advances contested [] t t' → stand t') :
    Passes (leading w.answer) stand := by
  intro t q hs hq
  exact keep t _ hs (hw.advances_answer (lawful t hs) (hq.written? _))

/-! ## Swaps -/

namespace Rivalry.Contends

variable {candidate r : StockRecord}

theorem swap_refused (h : w.Contends contested now) (hl : t.store.Lawful)
    (hi : candidate.IsConsistent) (hc : contested candidate.sku = true)
    (hr : t.store.load candidate.sku = some r) (version : Nat) :
    ∃ e, (w.answer (.swap candidate (.exactly version)) t).1 = .error e ∧
      (LedgerError.ofStore e).isRetryable = true := by
  obtain ⟨found, hf⟩ :=
    (h.spares.follows_meddled hl (.swap candidate (.exactly version))).kept _ r hr
  have ne : found.version ≠ version := h.ahead t.asked candidate version t.store found hl hc hf
  have unmatched : (ExpectedVersion.exactly version).matches found.version = false := by
    rw [← Bool.not_eq_true, Store.matches_exactly]
    exact Ne.symm ne
  obtain ⟨sku, expected, actual, hs⟩ := Store.swap_eq_conflict_iff.2 ⟨hi, found, hf, unmatched⟩
  exact ⟨.conflict sku expected actual, answer_swap_error hs,
    (LedgerError.isRetryable_ofStore_iff _).2 ⟨sku, expected, actual, rfl⟩⟩

theorem swap_accepted (h : w.Contends contested now) (hl : t.store.Lawful)
    (hn : candidate.Lawful candidate.sku) (hc : contested candidate.sku = false)
    (hr : t.store.load candidate.sku = some r) (hi : r.id = candidate.id) :
    (w.answer (.swap candidate (.exactly r.version)) t).1 =
      .ok (candidate.atVersion (r.version + 1)) ∧
      Advances contested [candidate.atVersion (r.version + 1)] t
        (w.answer (.swap candidate (.exactly r.version)) t).2 := by
  have hm := h.spares.follows_meddled hl (.swap candidate (.exactly r.version))
  have hs := Store.swap_eq_ok_iff.2 ⟨hn.wellFormed.consistent, r, (hm.spared _ hc).trans hr,
    Store.matches_exactly.2 rfl, hi, rfl, rfl⟩
  obtain ⟨replied, stored⟩ := answer_swap hs
  refine ⟨replied, h.spares.advances_put hl
    ⟨rfl, hn.isCreated, hn.wellFormed.atVersion _⟩ stored ?_⟩
  rw [replied]
  rfl

/-- To swap a record for the swept one fails for the next attempt's sake if the unit is
contested, and succeeds if not. -/
theorem leads_swap (h : w.Contends contested now) (hl : t.store.Lawful) (law : r.Lawful sku)
    (there : ∃ found, t.store.load sku = some found)
    (same : contested sku = false → t.store.load sku = some r) (something : r.staleHolds now ≠ []) :
    (Program.swap (r.swept now) (.exactly r.version)).Leads w.answer t fun reply t' =>
      (contested sku = true ∧ (∃ e, reply = .error e ∧ (LedgerError.ofStore e).isRetryable = true) ∧
        Advances contested [] t t') ∨
      (contested sku = false ∧ (∃ record, reply = .ok record) ∧
        Advances contested (r.lapsed now) t t') := by
  have hn := law.swept now
  have hk := hn.sku_eq
  cases hu : contested sku with
  | true =>
    obtain ⟨found, hf⟩ := there
    rw [← hk] at hu hf
    obtain ⟨e, replied, retry⟩ := h.swap_refused hl hn.wellFormed.consistent hu hf r.version
    refine Or.inl ⟨rfl, ⟨e, replied, retry⟩, h.spares.advances_answer hl ?_⟩
    rw [replied]
    rfl
  | false =>
    have stored := same hu
    rw [← hk] at hu stored
    obtain ⟨replied, h1⟩ := h.swap_accepted hl hn.self hu stored (StockRecord.id_applyAll _ _).symm
    refine Or.inr ⟨rfl, ⟨_, replied⟩, ?_⟩
    rw [StockRecord.lapsed, if_neg something]
    exact h1

end Rivalry.Contends

/-! ## One unit -/

/-- How it ends to expire the holds of a unit: nobody contests it, and just the overdue
ones have expired; or it is contested, and nothing has been written, whether or not
there was anything to do. -/
inductive Expires (contested : SkuCode → Bool) (now : Timestamp) (sku : SkuCode) {ε : Type}
    (IsLost : ε → Prop) (t : Rivaled) : Except ε Commit → Rivaled → Prop where
  | done (c : Commit) (t' : Rivaled) (r : StockRecord) (hu : contested sku = false)
    (hr : t.store.load sku = some r) (hc : c.events.length = (r.staleHolds now).length)
    (ht : Advances contested (r.lapsed now) t t') :
    Expires contested now sku IsLost t (.ok c) t'
  | idle (c : Commit) (t' : Rivaled) (hu : contested sku = true) (hc : c.events = [])
    (ht : Advances contested [] t t') :
    Expires contested now sku IsLost t (.ok c) t'
  | lost (e : ε) (t' : Rivaled) (hu : contested sku = true) (he : IsLost e)
    (ht : Advances contested [] t t') :
    Expires contested now sku IsLost t (.error e) t'

namespace Expires

variable {ε : Type} {IsLost : ε → Prop} {result : Except ε Commit}

theorem after (h : Expires contested now sku IsLost t result t')
    (ht : Advances contested [] t' t'') :
    Expires contested now sku IsLost t result t'' := by
  cases h with
  | done c _ r hu hr hc ht' =>
    have s1 := ht'.trans ht
    rw [List.append_nil] at s1
    exact .done c _ r hu hr hc s1
  | idle c _ hu hc ht' => exact .idle c _ hu hc (ht'.trans ht)
  | lost e _ hu he ht' => exact .lost e _ hu he (ht'.trans ht)

theorem of_ok {δ : Type} {c : Commit} (h : Expires contested now sku IsLost t (.ok c) t')
    (IsLost' : δ → Prop) :
    Expires contested now sku IsLost' t (.ok c) t' := by
  cases h with
  | done _ _ r hu hr hc ht => exact .done c t' r hu hr hc ht
  | idle _ _ hu hc ht => exact .idle c t' hu hc ht

theorem of_error {e : ε} (h : Expires contested now sku IsLost t (.error e) t') :
    contested sku = true ∧ IsLost e ∧ Advances contested [] t t' := by
  cases h with
  | lost _ _ hu he ht => exact ⟨hu, he, ht⟩

theorem lawful (h : Expires contested now sku IsLost t result t') : t'.store.Lawful := by
  cases h with
  | done _ _ _ _ _ _ ht => exact ht.lawful
  | idle _ _ _ _ ht => exact ht.lawful
  | lost _ _ _ _ ht => exact ht.lawful

theorem passes (h : w.Contends contested now) :
    Passes (leading w.answer) (Expires contested now sku IsLost t result) :=
  passes_leading h.spares (fun _ ht => ht.lawful) fun _ _ ht => ht.after

end Expires

theorem idle_note (entry : LogEntry) : Idle (Program.note entry) := idle_request fun _ => rfl

/-! ## Attempts -/

/-- A record of the unit that has been read since `t`, and that is the stored one if
nobody contests the unit. -/
structure Finds (contested : SkuCode → Bool) (sku : SkuCode) (t : Rivaled) (current : StockRecord)
    (t' : Rivaled) : Prop where
  way : Advances contested [] t t'
  lawful : current.Lawful sku
  there : ∃ r, t'.store.load sku = some r
  same : contested sku = false → t'.store.load sku = some current

theorem Finds.after {current : StockRecord} (h : Finds contested sku t current t')
    (ht : Advances contested [] t' t'') : Finds contested sku t current t'' where
  way := h.way.trans ht
  lawful := h.lawful
  there := h.there.elim fun r hr => ht.kept sku r hr
  same hu := (ht.spared sku hu).trans (h.same hu)

theorem Finds.load_eq {current : StockRecord} (h : Finds contested sku t current t')
    (hu : contested sku = false) : t.store.load sku = some current :=
  (h.way.spared sku hu).symm.trans (h.same hu)

theorem Rivalry.Contends.finds (h : w.Contends contested now) {r : StockRecord}
    (hr : t.store.load sku = some r) (ht : Advances contested [] t t') :
    (Program.load sku).Leads w.answer t' (afterLoad sku (Finds contested sku t)
      (Expires contested now sku (fun e => e.isRetryable = true) t)) := by
  obtain ⟨r', hr'⟩ := ht.kept sku r hr
  have hm := h.spares.follows_meddled ht.lawful (.load sku)
  obtain ⟨current, hc⟩ := hm.kept sku r' hr'
  have loaded : (w.answer (.load sku) t').1 = .ok (some current) := congrArg Except.ok hc
  show afterLoad _ _ _ (w.answer (.load sku) t').1 _
  rw [loaded]
  exact ⟨ht.trans (h.spares.advances_answer ht.lawful rfl), hm.lawful sku current hc,
    ⟨current, hc⟩, fun _ => hc⟩

theorem Expires.of_idle {ε : Type} {IsLost : ε → Prop} {current : StockRecord}
    (h : Finds contested sku t current t') (nothing : current.staleHolds now = []) :
    Expires contested now sku IsLost t (.ok ⟨current, []⟩) t' := by
  cases hu : contested sku with
  | true => exact .idle _ t' hu rfl h.way
  | false =>
    refine .done _ t' current hu (h.load_eq hu) ?_ ?_
    · rw [nothing]
      rfl
    · rw [StockRecord.lapsed, if_pos nothing]
      exact h.way

theorem Finds.swap {current : StockRecord} (hf : Finds contested sku t current t')
    (h : w.Contends contested now) (something : current.staleHolds now ≠ []) :
    (Program.swap (current.swept now) (.exactly current.version)).Leads w.answer t' fun reply =>
      Expires contested now sku (fun e => e.isRetryable = true) t
        (stored (current.expiryEvents now) reply) := by
  refine (h.leads_swap hf.way.lawful hf.lawful hf.there hf.same something).mono ?_
  rintro reply t'' (⟨hu, ⟨e, rfl, retry⟩, ht⟩ | ⟨hu, ⟨record, rfl⟩, ht⟩)
  · exact .lost _ t'' hu retry (hf.way.trans ht)
  · exact .done _ t'' current hu (hf.load_eq hu)
      (StockRecord.length_expiryEvents current now) (hf.way.trans ht)

def attempts_expiry (h : w.Contends contested now) {r : StockRecord}
    (hr : t.store.load sku = some r) :
    Attempts (leading w.answer) sku (fun now => .ok ⟨.expire, now⟩) (Advances contested [] t)
      (Expires contested now sku (fun e => e.isRetryable = true) t) where
  loaded := Finds contested sku t
  timed current reading t' := reading = now ∧ Finds contested sku t current t'
  load _ ht := h.finds hr ht
  clock _ _ hf := ⟨h.clock _, hf.after (h.spares.advances_answer hf.way.lawful rfl)⟩
  undecided _ _ _ _ _ hc := by cases hc
  refused _ current reading c e hf hc he := by
    cases hc
    rw [StockRecord.execute_expire hf.2.lawful.isCreated] at he
    cases he
  idle _ current reading c next hf hc he := by
    obtain ⟨rfl, hf⟩ := hf
    cases hc
    rw [StockRecord.execute_expire hf.lawful.isCreated] at he
    exact .of_idle hf (List.map_eq_nil_iff.1 (Prod.mk.inj (Except.ok.inj he)).2)
  swap _ current reading c candidate events hf hc he some := by
    obtain ⟨rfl, hf⟩ := hf
    cases hc
    rw [StockRecord.execute_expire hf.lawful.isCreated] at he
    obtain ⟨rfl, rfl⟩ := Prod.mk.inj (Except.ok.inj he)
    exact hf.swap h fun none => some (List.map_eq_nil_iff.2 none)
  passes _ := Expires.passes h

/-! ## Commits -/

/-- A failure for want of further attempts. -/
def IsSpent (f : Retry.Failure LedgerError) : Prop := ∃ attempts last, f = .exhausted attempts last

theorem retries_expiry (h : w.Contends contested now) (policy : RetryPolicy) {r : StockRecord}
    (hr : t.store.load sku = some r) :
    Retries (leading w.answer) policy (attempt sku fun now => .ok ⟨.expire, now⟩)
      LedgerError.isRetryable policy.attempts (fun _ => Advances contested [] t)
      (fun _ => Expires contested now sku (fun e => e.isRetryable = true) t)
      (Expires contested now sku IsSpent t) where
  attempt n _ := (attempts_expiry h hr).holds n
  passes _ _ := Expires.passes h
  succeeded _ _ _ he := he.of_ok IsSpent
  failed _ _ _ he hn := by
    rw [he.of_error.2.1] at hn
    cases hn
  spent n e _ he _ _ := .lost _ _ he.of_error.1 ⟨n, e, rfl⟩ he.of_error.2.2
  again _ _ _ he _ _ := he.of_error.2.2

theorem expires_commit (h : w.Contends contested now) (config : LedgerConfig) (hl : t.store.Lawful)
    {r : StockRecord} (hr : t.store.load sku = some r) :
    (commit config sku fun now => .ok ⟨.expire, now⟩).Leads w.answer t
      (Expires contested now sku
        (fun e => ∃ attempts, e = .concurrencyConflict sku attempts) t) := by
  have closes : Closes (leading w.answer) sku (Expires contested now sku IsSpent t)
      (Expires contested now sku (fun e => ∃ attempts, e = .concurrencyConflict sku attempts) t) :=
    { told := fun t' c he =>
        ((idle_publishAll c.record c.events).leads h.spares he.lawful).mono fun _ _ ht =>
          (he.of_ok _).after ht
      failed := fun _ _ he => by
        obtain ⟨_, _, hs⟩ := he.of_error.2.1
        cases hs
      spent := fun t' attempts e he => .lost _ t' he.of_error.1 ⟨attempts, rfl⟩ he.of_error.2.2
      passes := fun _ => Expires.passes h }
  exact closes.holds ((retries_expiry h config.retry hr).run (advances_refl hl))

end Ledger

end Stockroom
