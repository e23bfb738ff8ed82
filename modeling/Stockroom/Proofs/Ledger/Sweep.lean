import Stockroom.Ledger.Scene
import Stockroom.Proofs.Ledger.Expiry

/-! The sweep of all units among rivals. Just the overdue holds of units that nobody contests expire
and are counted; contested units are left alone, and the sweep goes on. -/
namespace Stockroom
set_option autoImplicit false

namespace Ledger

open Program (leads_request_bind)
open StockRecord (eight nine)

variable {w : Rivalry} {contested : SkuCode → Bool} {now : Timestamp} {t t' : Rivaled}
  {sku : SkuCode}

/-! ## The sweep -/

/-- What a sweep writes of the units that nobody contests. -/
def writes (contested : SkuCode → Bool) (now : Timestamp)
    (records : List StockRecord) : List StockRecord :=
  (records.filter fun r => !contested r.sku).flatMap fun r => r.lapsed now

def due (contested : SkuCode → Bool) (now : Timestamp) (records : List StockRecord) : Nat :=
  ((records.filter fun r => !contested r.sku).flatMap fun r => r.overdue now).length

theorem writes_cons (contested : SkuCode → Bool) (now : Timestamp) (r : StockRecord)
    (rest : List StockRecord) :
    writes contested now (r :: rest) =
      (if contested r.sku then [] else r.lapsed now) ++ writes contested now rest := by
  cases hu : contested r.sku <;> simp [writes, hu]

theorem due_cons (contested : SkuCode → Bool) (now : Timestamp) (r : StockRecord)
    (rest : List StockRecord) :
    due contested now (r :: rest) =
      (if contested r.sku then 0 else (r.staleHolds now).length) + due contested now rest := by
  cases hu : contested r.sku <;> simp [due, hu, StockRecord.overdue_eq]

/-- The scanned records are still there, and are the stored ones where nobody contests them. -/
def Stands (contested : SkuCode → Bool) (records : List StockRecord) (s : Store) : Prop :=
  ∀ r ∈ records, ∃ found, s.load r.sku = some found ∧ (contested r.sku = false → found = r)

theorem Stands.tail {r : StockRecord} {rest own : List StockRecord}
    (hs : Stands contested (r :: rest) t.store) (hd : ∀ d ∈ rest, r.sku ≠ d.sku)
    (ho : ∀ d ∈ own, d.sku = r.sku) (ht : Advances contested own t t') :
    Stands contested rest t'.store := by
  intro d hm
  obtain ⟨found, hf, same⟩ := hs d (List.mem_cons_of_mem r hm)
  obtain ⟨next, hn⟩ := ht.kept d.sku found hf
  refine ⟨next, hn, ?_⟩
  intro hu
  have elsewhere : ∀ x ∈ own, x.sku ≠ d.sku := by
    intro x hx
    rw [ho x hx]
    exact hd d hm
  rw [ht.spared d.sku hu, Store.load_putAll_of_not_mem elsewhere, hf] at hn
  rw [← Option.some.inj hn]
  exact same hu

theorem Stands.pass {r : StockRecord} {rest : List StockRecord}
    (hs : Stands contested (r :: rest) t.store) (hd : ∀ d ∈ rest, r.sku ≠ d.sku)
    (ht : Advances contested [] t t') : Stands contested rest t'.store :=
  hs.tail hd (fun _ hm => absurd hm List.not_mem_nil) ht

theorem leads_sweep (h : w.Contends contested now) (config : LedgerConfig) (released : Nat)
    {records : List StockRecord} (hd : records.Pairwise fun a b => a.sku ≠ b.sku)
    (hl : t.store.Lawful) (hs : Stands contested records t.store) :
    (sweep config now released records).Leads w.answer t fun result t' =>
      result = .ok (released + due contested now records) ∧
        Advances contested (writes contested now records) t t' := by
  induction records generalizing t released with
  | nil => exact ⟨rfl, advances_refl hl⟩
  | cons r rest ih =>
    obtain ⟨h1, h2⟩ := List.pairwise_cons.1 hd
    rw [due_cons, writes_cons]
    unfold sweep
    split
    · rename_i nothing
      have none : r.staleHolds now = [] := List.isEmpty_iff.1 nothing
      have skipped : r.lapsed now = [] := if_pos none
      rw [none, skipped, List.length_nil, ite_self, ite_self, Nat.zero_add, List.nil_append]
      exact ih released h2 hl (hs.pass h1 (advances_refl hl))
    · obtain ⟨found, hf, same⟩ := hs r List.mem_cons_self
      refine (expires_commit h config hl hf).seq ?_
      intro result t1 he
      cases he with
      | done c _ old hu ho hc ht =>
        have e : old = r := (Option.some.inj (ho.symm.trans hf)).trans (same hu)
        subst e
        obtain ⟨h3, h4⟩ := ih (released + c.events.length) h2 ht.lawful
            (hs.tail h1 (fun _ => StockRecord.sku_of_mem_lapsed) ht)
        rw [hu, if_neg Bool.false_ne_true, if_neg Bool.false_ne_true, ← hc, ← Nat.add_assoc]
        exact And.intro h3 (ht.trans h4)
      | idle c _ hu hc ht =>
        obtain ⟨h3, h4⟩ := ih released h2 ht.lawful (hs.pass h1 ht)
        dsimp only
        rw [hc, hu, if_pos rfl, if_pos rfl, Nat.zero_add]
        exact And.intro h3 (ht.trans h4)
      | lost e _ hu he ht =>
        obtain ⟨attempts, rfl⟩ := he
        dsimp only
        refine ((idle_note _).leads h.spares ht.lawful).seq ?_
        intro _ t2 h5
        have skipped := ht.trans h5
        obtain ⟨h3, h4⟩ := ih released h2 skipped.lawful (hs.pass h1 skipped)
        rw [hu, if_pos rfl, if_pos rfl, Nat.zero_add]
        exact And.intro h3 (skipped.trans h4)

/-! ## What is written -/

theorem mem_writes {records : List StockRecord} {d : StockRecord}
    (h : d ∈ writes contested now records) :
    ∃ r ∈ records, contested r.sku = false ∧ d ∈ r.lapsed now := by
  obtain ⟨r, hr, hd⟩ := List.mem_flatMap.1 h
  obtain ⟨h1, h2⟩ := List.mem_filter.1 hr
  exact ⟨r, h1, by simpa using h2, hd⟩

theorem distinct_writes {records : List StockRecord}
    (h : records.Pairwise fun a b => a.sku ≠ b.sku) :
    (writes contested now records).Pairwise fun a b => a.sku ≠ b.sku := by
  refine List.pairwise_flatMap.2 ⟨?_, ?_⟩
  · intro r hr
    unfold StockRecord.lapsed
    split
    · exact .nil
    · exact List.pairwise_singleton _ _
  · refine (h.filter _).imp ?_
    intro a b hab x hx y hy
    rw [StockRecord.sku_of_mem_lapsed hx, StockRecord.sku_of_mem_lapsed hy]
    exact hab

variable {s : Store}

theorem load_writes_of_settled (hs : s.Lawful) (h : ∀ r, s.load sku = some r → r.overdue now = []) :
    (s.putAll (writes contested now s.scan)).load sku = s.load sku := by
  refine Store.load_putAll_of_not_mem ?_ s
  rintro d hd rfl
  obtain ⟨r, hr, -, hm⟩ := mem_writes hd
  have hk := StockRecord.sku_of_mem_lapsed hm
  rw [hk] at h
  rw [StockRecord.lapsed_eq_nil_iff.2 (h r ((hs.mem_scan_iff r).1 hr))] at hm
  cases hm

theorem load_writes_of_overdue (hs : s.Lawful) {r : StockRecord} (hu : contested sku = false)
    (hr : s.load sku = some r) (ho : r.overdue now ≠ []) :
    (s.putAll (writes contested now s.scan)).load sku =
      some ((r.swept now).atVersion (r.version + 1)) := by
  have hk : r.sku = sku := (hs sku r hr).sku_eq
  subst hk
  have lapses : r.lapsed now = [(r.swept now).atVersion (r.version + 1)] := by
    rw [StockRecord.overdue_eq] at ho
    exact if_neg ho
  have listed : r ∈ s.scan.filter fun r => !contested r.sku :=
    List.mem_filter.2 ⟨(hs.mem_scan_iff r).2 hr, by simp [hu]⟩
  have mem : (r.swept now).atVersion (r.version + 1) ∈ writes contested now s.scan := by
    refine List.mem_flatMap.2 ⟨r, listed, ?_⟩
    rw [lapses]
    exact List.mem_singleton_self _
  have s1 := Store.load_putAll_of_mem (distinct_writes hs.distinct_scan) mem s
  have s2 : ((r.swept now).atVersion (r.version + 1)).sku = r.sku := StockRecord.sku_applyAll _ _
  rw [s2] at s1
  exact s1

/-! ## All units -/

/-- What a sweep of all units among rivals makes of the store `s`. -/
structure Sweeps (contested : SkuCode → Bool) (now : Timestamp) (s : Store)
    (result : Except LedgerError Nat) (after : Rivaled) : Prop where
  /-- It answers with the number of all overdue holds, but for those on contested units. -/
  counted : result = .ok (due contested now s.scan)
  cleared : ∀ sku r, contested sku = false → after.store.load sku = some r → r.overdue now = []
  expired : ∀ sku r, contested sku = false → s.load sku = some r → r.overdue now ≠ [] →
    ∃ next events, r.execute ⟨.expire, now⟩ = .ok (next, events) ∧
      after.store.load sku = some (next.atVersion (r.version + 1))
  kept : ∀ sku, contested sku = false → (∀ r, s.load sku = some r → r.overdue now = []) →
    after.store.load sku = s.load sku
  /-- To contested units it does not write. -/
  untouched : ∀ r ∈ after.written, contested r.sku = false

/-- A sweep that finds nothing to do, and does nothing. -/
structure IsVain (s : Store) (result : Except LedgerError Nat) (after : Rivaled) : Prop where
  result : result = .ok 0
  store : after.store = s
  written : after.written = []
  offered : after.offered = []

theorem leads_expireAll (h : w.Contends contested now) (config : LedgerConfig) {s : Store}
    (hs : s.Lawful) :
    (expireAll config).Leads w.answer ⟨⟨s, 0, []⟩, []⟩ fun result t' =>
      result = .ok (due contested now s.scan) ∧
      Advances contested (writes contested now s.scan) ⟨⟨s, 0, []⟩, []⟩ t' := by
  generalize ht : (⟨⟨s, 0, []⟩, []⟩ : Rivaled) = t
  have hl : t.store.Lawful := by
    rw [← ht]
    exact hs
  have e : t.store = s := by rw [← ht]
  have timed : (w.answer .clock t).1 = now := h.clock _
  have h1 : Advances contested [] t (w.answer .clock t).2 := h.spares.advances_answer hl rfl
  unfold expireAll
  refine leads_request_bind.2 ?_
  rw [timed]
  generalize (w.answer .clock t).2 = t1 at h1 ⊢
  have h2 : Advances contested [] t1 (w.answer .scan t1).2 := h.spares.advances_answer h1.lawful rfl
  refine leads_request_bind.2 ?_
  have scanned : (w.answer .scan t1).1 = .ok (w.answer .scan t1).2.store.scan := rfl
  rw [scanned]
  generalize (w.answer .scan t1).2 = t2 at h2 ⊢
  have h3 := h1.trans h2
  have same := Store.Follows.scan hl ⟨h3.spared, h3.kept, h3.lawful⟩
  rw [e] at same
  have stands : Stands contested t2.store.scan t2.store := by
    intro r hr
    exact ⟨r, (h2.lawful.mem_scan_iff r).1 hr, fun _ => rfl⟩
  dsimp only
  refine (leads_sweep h config 0 h2.lawful.distinct_scan h2.lawful stands).seq ?_
  rintro result t4 ⟨rfl, h4⟩
  have h5 := h3.trans h4
  have counted : due contested now t2.store.scan = due contested now s.scan := by
    rw [due, same, due]
  have wrote : writes contested now t2.store.scan = writes contested now s.scan := by
    rw [writes, same, writes]
  rw [wrote] at h5
  rw [Nat.zero_add, counted]
  dsimp only
  split
  · refine ((idle_note _).leads h.spares h5.lawful).seq ?_
    intro _ t6 h6
    have h7 := h5.trans h6
    rw [List.append_nil] at h7
    exact And.intro rfl h7
  · exact And.intro rfl h5

theorem sweeps_expireAll (h : w.Contends contested now) (config : LedgerConfig) {s : Store}
    (hs : s.Lawful) :
    Sweeps contested now s (w.run s (expireAll config)).1 (w.run s (expireAll config)).2 := by
  obtain ⟨h1, h2⟩ := leads_expireAll h config hs
  change (w.run s (expireAll config)).1 = _ at h1
  change Advances contested _ _ (w.run s (expireAll config)).2 at h2
  have kept (sku : SkuCode) (hu : contested sku = false)
      (hn : ∀ r, s.load sku = some r → r.overdue now = []) :
      (w.run s (expireAll config)).2.store.load sku = s.load sku :=
    (h2.spared sku hu).trans (load_writes_of_settled hs hn)
  have expired (sku : SkuCode) (hu : contested sku = false) (r : StockRecord)
      (hr : s.load sku = some r) (ho : r.overdue now ≠ []) :
      (w.run s (expireAll config)).2.store.load sku =
        some ((r.swept now).atVersion (r.version + 1)) :=
    (h2.spared sku hu).trans (load_writes_of_overdue hs hu hr ho)
  refine ⟨h1, ?_, ?_, kept, ?_⟩
  · intro sku found hu hf
    by_cases hn : ∀ r, s.load sku = some r → r.overdue now = []
    · rw [kept sku hu hn] at hf
      exact hn found hf
    · obtain ⟨r, hr⟩ := not_forall.1 hn
      obtain ⟨hr, ho⟩ := Classical.not_imp.1 hr
      rw [expired sku hu r hr ho] at hf
      cases hf
      rw [StockRecord.overdue_eq]
      exact (hs sku r hr).wellFormed.sound.staleHolds_swept
  · intro sku r hu hr ho
    exact ⟨r.swept now, r.expiryEvents now,
      StockRecord.execute_expire (hs sku r hr).isCreated now, expired sku hu r hr ho⟩
  · intro d hd
    rw [h2.written] at hd
    obtain ⟨r, -, hu, hm⟩ := mem_writes hd
    rw [StockRecord.sku_of_mem_lapsed hm]
    exact hu

/-! ## A second sweep -/

theorem sweep_of_settled {records : List StockRecord} (h : ∀ r ∈ records, r.overdue now = [])
    (config : LedgerConfig) (released : Nat) :
    sweep config now released records = return .ok released := by
  induction records with
  | nil => rfl
  | cons r rest ih =>
    have nothing : r.staleHolds now = [] := by
      rw [← StockRecord.overdue_eq]
      exact h r List.mem_cons_self
    unfold sweep
    rw [nothing, if_pos List.isEmpty_nil]
    exact ih fun d hd => h d (List.mem_cons_of_mem r hd)

theorem Rivalry.Contends.meddled_eq (h : w.Contends (fun _ => false) now) (q : Request)
    (t : Rivaled) : w.meddled q t = t.store := by
  have none : w.rivals t.asked q t.store = [] := by
    refine List.eq_nil_iff_forall_not_mem.2 ?_
    intro o ho
    cases h.elsewhere t.asked q t.store o ho
  rw [meddled, none]
  rfl

theorem isVain_expireAll (h : w.Contends (fun _ => false) now) (config : LedgerConfig)
    (hs : s.Lawful) (hn : ∀ sku r, s.load sku = some r → r.overdue now = []) :
    IsVain s (w.run s (expireAll config)).1 (w.run s (expireAll config)).2 := by
  have timed (t : Rivaled) : w.answer .clock t =
      (now, ⟨⟨t.store, t.asked + 1, t.offered⟩, t.written ++ []⟩) := by
    show (w.world t.asked .clock, (⟨⟨w.meddled .clock t, _, _⟩, _⟩ : Rivaled)) = _
    rw [h.clock, h.meddled_eq]
    rfl
  have scanned (t : Rivaled) :
      w.answer .scan t =
        (.ok t.store.scan, ⟨⟨t.store, t.asked + 1, t.offered⟩, t.written ++ []⟩) := by
    show (Except.ok (w.meddled .scan t).scan, (⟨⟨w.meddled .scan t, _, _⟩, _⟩ : Rivaled)) = _
    rw [h.meddled_eq]
    rfl
  have settled : ∀ r ∈ s.scan, r.overdue now = [] := by
    intro r hr
    exact hn r.sku r ((hs.mem_scan_iff r).1 hr)
  have run : w.run s (expireAll config) = (.ok 0, ⟨⟨s, 2, []⟩, []⟩) := by
    unfold Rivalry.run expireAll
    refine (Program.run_request_bind _ _ _ _).trans ?_
    rw [timed]
    refine (Program.run_request_bind _ _ _ _).trans ?_
    rw [scanned]
    dsimp only
    rw [sweep_of_settled settled]
    rfl
  rw [run]
  exact ⟨rfl, rfl, rfl, rfl⟩

/-! ## Stores that were reached -/

/-- Whatever calls have led to the store, a sweep of all units sweeps all that nobody contests; and
if nobody contests any, another sweep at the same moment is in vain. -/
theorem sweeps_reached (errands : List Errand) (turns : List Turn) (config : LedgerConfig)
    (h : w.Contends contested now) :
    Sweeps contested now (reached errands turns)
      (w.run (reached errands turns) (expireAll config)).1
        (w.run (reached errands turns) (expireAll config)).2 ∧
      ((∀ sku, contested sku = false) → ∀ (again : Rivalry) (config' : LedgerConfig),
        again.Contends (fun _ => false) now →
          IsVain (w.run (reached errands turns) (expireAll config)).2.store
            (again.run
              (w.run (reached errands turns) (expireAll config)).2.store (expireAll config')).1
            (again.run (w.run (reached errands turns) (expireAll config)).2.store
              (expireAll config')).2) := by
  have hs := lawful_reached errands turns
  have swept := sweeps_expireAll h config hs
  refine ⟨swept, ?_⟩
  intro hu again config' ha
  obtain ⟨-, h2⟩ := leads_expireAll h config hs
  refine isVain_expireAll ha config' h2.lawful ?_
  intro sku r hr
  exact swept.cleared sku r (hu sku) hr

def washers : NewItem := ⟨⟨.ofNat 1⟩, ⟨"WASHER"⟩, 10, none, none, none, none⟩

def rivets : NewItem := ⟨⟨.ofNat 2⟩, ⟨"RIVET"⟩, 10, none, none, none, none⟩

/-- Two units, each with a hold until nine. -/
def holding : List Errand :=
  [.perform (.create washers), .perform (.create rivets),
    .perform (.reserveUntil washers.sku 2 ⟨"crate"⟩ none (some nine)),
    .perform (.reserveUntil rivets.sku 3 ⟨"crate"⟩ none (some nine))].map fun call =>
    ⟨.standard, call⟩

def oneByOne : List Turn :=
  [0, 1, 2, 3].flatMap fun thread =>
    List.replicate 8 ⟨thread, fun q => (Scene.answer q (.start eight fun _ => none)).1⟩

/-- Somebody who writes to the washers whenever they are about to be swapped. -/
def hasty : Rivalry where
  world _ q := (Scene.answer q (.start nine fun _ => none)).1
  bus _ _ := none
  rivals _ q s :=
    match q with
    | .swap candidate (.exactly version) =>
      if candidate.sku = washers.sku ∧
        (s.load washers.sku).map StockRecord.version = some version then
        [⟨washers.sku, .ofNat 0, ⟨.deactivate none, nine⟩⟩]
      else []
    | _ => []

theorem contends_hasty : hasty.Contends (fun sku => sku = washers.sku) nine where
  clock _ := rfl
  elsewhere n q s o ho := by
    unfold hasty at ho
    dsimp only at ho
    split at ho
    · split at ho
      · rw [List.mem_singleton.1 ho]
        exact decide_eq_true rfl
      · cases ho
    · cases ho
  ahead n candidate version s r hs hk hr := by
    have hk' : candidate.sku = washers.sku := of_decide_eq_true hk
    rw [hk'] at hr
    unfold hasty at hr
    dsimp only at hr
    split at hr
    · rename_i hv
      obtain ⟨b, hb, hv⟩ := Option.map_eq_some_iff.1 hv.2
      have law := hs washers.sku b hb
      have decided : b.eventsFor ⟨.deactivate none, nine⟩ = .ok _ :=
        StockRecord.decideDeactivate_eq_ok_iff.2 ⟨law.isCreated, rfl⟩
      have obeyed := hs.load_obey (o := ⟨washers.sku, .ofNat 0, _⟩) hb
          (StockRecord.execute_eq_ok_iff.2 ⟨decided, rfl⟩)
      have loaded := hr.symm.trans obeyed
      cases loaded
      show b.version + 1 ≠ version
      omega
    · rename_i hv
      rintro rfl
      refine hv ⟨hk', ?_⟩
      have kept : s.load washers.sku = some r := hr
      rw [kept]
      rfl

theorem sweeps_reached_hasty :
    (hasty.run (reached holding oneByOne) (expireAll .standard)).1 = .ok 1 ∧
      ∀ r ∈ (hasty.run (reached holding oneByOne) (expireAll .standard)).2.written,
        r.sku ≠ washers.sku := by
  obtain ⟨h, -⟩ := sweeps_reached holding oneByOne .standard contends_hasty
  have one : due (fun sku => sku = washers.sku) nine (reached holding oneByOne).scan = 1 := by
    decide +kernel
  refine ⟨h.counted.trans (congrArg Except.ok one), ?_⟩
  intro r hr
  exact of_decide_eq_false (h.untouched r hr)

end Ledger

end Stockroom
