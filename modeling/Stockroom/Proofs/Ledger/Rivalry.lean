import Stockroom.Ledger.Rivalry
import Stockroom.Proofs.Ledger.Atomicity

/-! Programs among rivals. What rivals do is lawful: units stay in store, and their records
well-formed. Units that they do not contest change by the program's own writes alone. -/
namespace Stockroom
set_option autoImplicit false

/-! ## Lawful stores -/

/-- A record that may stand under a unit. -/
structure StockRecord.Lawful (sku : SkuCode) (r : StockRecord) : Prop where
  sku_eq : r.sku = sku
  isCreated : r.isCreated = true
  wellFormed : r.WellFormed

theorem StockRecord.WellFormed.lawful_execute {base next : StockRecord} {c : Command}
    {events : List Event} (h : base.WellFormed) (he : base.execute c = .ok (next, events))
    (version : Nat) :
    (next.atVersion version).Lawful base.sku where
  sku_eq := by
    rw [(execute_eq_ok_iff.1 he).2]
    exact sku_applyAll _ _
  isCreated := by
    have hc := isCreated_execute he
    exact hc
  wellFormed := (h.execute he).atVersion version

theorem StockRecord.Lawful.self {sku : SkuCode} {r : StockRecord}
    (h : r.Lawful sku) : r.Lawful r.sku :=
  ⟨rfl, h.isCreated, h.wellFormed⟩

namespace Store

def Lawful (s : Store) : Prop := ∀ sku r, s.load sku = some r → r.Lawful sku

variable {s s' : Store} {r : StockRecord}

theorem Lawful.put (h : s.Lawful) (hr : r.Lawful r.sku) : (s.put r).Lawful := by
  intro sku found hf
  rw [load_put] at hf
  by_cases hk : sku = r.sku
  · rw [if_pos hk] at hf
    cases hf
    exact hk ▸ hr
  · rw [if_neg hk] at hf
    exact h sku found hf

def putAll (s : Store) (rs : List StockRecord) : Store := rs.foldl put s

theorem load_putAll_congr {sku : SkuCode} (h : s.load sku = s'.load sku) (rs : List StockRecord) :
    (s.putAll rs).load sku = (s'.putAll rs).load sku := by
  induction rs generalizing s s' with
  | nil => exact h
  | cons r rs ih =>
    refine ih ?_
    rw [load_put, load_put, h]

theorem load_putAll_of_not_mem {sku : SkuCode} {rs : List StockRecord} (h : ∀ r ∈ rs, r.sku ≠ sku)
    (s : Store) :
    (s.putAll rs).load sku = s.load sku := by
  induction rs generalizing s with
  | nil => rfl
  | cons r rs ih =>
    have s1 := ih (fun r' hr => h r' (List.mem_cons_of_mem r hr)) (s.put r)
    have ne : sku ≠ r.sku := (h r List.mem_cons_self).symm
    exact s1.trans (load_put_of_ne s r ne)

theorem load_putAll_of_mem {rs : List StockRecord} (hd : rs.Pairwise fun a b => a.sku ≠ b.sku)
    (hr : r ∈ rs) (s : Store) : (s.putAll rs).load r.sku = some r := by
  induction rs generalizing s with
  | nil => cases hr
  | cons d rs ih =>
    obtain ⟨h1, h2⟩ := List.pairwise_cons.1 hd
    rcases List.mem_cons.1 hr with rfl | hr
    · have s1 : ((s.put r).putAll rs).load r.sku = (s.put r).load r.sku :=
        load_putAll_of_not_mem (fun d hd => (h1 d hd).symm) _
      exact s1.trans (load_put_self s r)
    · exact ih h2 hr (s.put d)

/-! ## Rivals -/

/-- A store that goes on from another one, in which units that are not
contested are as they were. -/
structure Follows (contested : SkuCode → Bool) (s s' : Store) : Prop where
  spared : ∀ sku, contested sku = false → s'.load sku = s.load sku
  kept : ∀ sku r, s.load sku = some r → ∃ r', s'.load sku = some r'
  lawful : s'.Lawful

variable {contested : SkuCode → Bool}

theorem Lawful.follows (h : s.Lawful) : Follows contested s s :=
  ⟨fun _ _ => rfl, fun _ r hr => ⟨r, hr⟩, h⟩

theorem Follows.trans {s'' : Store} (h : Follows contested s s') (h' : Follows contested s' s'') :
    Follows contested s s'' where
  spared sku hk := (h'.spared sku hk).trans (h.spared sku hk)
  kept sku r hr := by
    obtain ⟨r', hr'⟩ := h.kept sku r hr
    exact h'.kept sku r' hr'
  lawful := h'.lawful

theorem Lawful.follows_put (h : s.Lawful) (hr : r.Lawful r.sku) (hc : contested r.sku = true) :
    Follows contested s (s.put r) where
  spared sku hk := by
    refine load_put_of_ne s r ?_
    rintro rfl
    cases hk.symm.trans hc
  kept sku found hf := by
    rw [load_put]
    split
    · exact ⟨r, rfl⟩
    · exact ⟨found, hf⟩
  lawful := h.put hr

theorem Lawful.base (h : s.Lawful) (sku : SkuCode) (id : Uuid) :
    ((s.load sku).getD (.empty ⟨id⟩ sku)).sku = sku ∧
      ((s.load sku).getD (.empty ⟨id⟩ sku)).WellFormed := by
  cases hl : s.load sku with
  | none => exact ⟨rfl, StockRecord.wellFormed_empty _ _⟩
  | some r => exact ⟨(h sku r hl).sku_eq, (h sku r hl).wellFormed⟩

theorem Lawful.follows_obey (h : s.Lawful) {o : Order} (hc : contested o.sku = true) :
    Follows contested s (s.obey o) := by
  obtain ⟨hk, hw⟩ := h.base o.sku o.id
  unfold obey
  cases he : ((s.load o.sku).getD (.empty ⟨o.id⟩ o.sku)).execute o.command with
  | error e => exact h.follows
  | ok p =>
    obtain ⟨next, events⟩ := p
    have hn := hw.lawful_execute he (Ledger.versionOf (s.load o.sku) + 1)
    refine h.follows_put hn.self ?_
    rw [hn.sku_eq, hk]
    exact hc

theorem Lawful.load_obey (h : s.Lawful) {o : Order} {next : StockRecord} {events : List Event}
    (hr : s.load o.sku = some r) (he : r.execute o.command = .ok (next, events)) :
    (s.obey o).load o.sku = some (next.atVersion (r.version + 1)) := by
  have law := h o.sku r hr
  have hk : next.sku = o.sku := ((law.wellFormed.lawful_execute he 0).sku_eq).trans law.sku_eq
  have obeyed : s.obey o = s.put (next.atVersion (r.version + 1)) := by
    unfold obey
    rw [hr, Option.getD_some, he]
    rfl
  rw [obeyed, ← hk]
  exact load_put_self s (next.atVersion (r.version + 1))

theorem Lawful.follows_obeyAll (h : s.Lawful) {os : List Order}
    (hc : ∀ o ∈ os, contested o.sku = true) : Follows contested s (s.obeyAll os) := by
  induction os generalizing s with
  | nil => exact h.follows
  | cons o os ih =>
    have s1 := h.follows_obey (hc o List.mem_cons_self)
    exact s1.trans (ih s1.lawful fun o' ho => hc o' (List.mem_cons_of_mem o ho))

/-! ## Scans -/

theorem Lawful.mem_scan_iff (h : s.Lawful) (r : StockRecord) : r ∈ s.scan ↔ s.load r.sku = some r :=
  Store.mem_scan_iff fun sku r hr => (h sku r hr).sku_eq

theorem Lawful.ascending_scan (h : s.Lawful) : s.scan.Pairwise fun a b => a.sku.text < b.sku.text :=
  Store.ascending_scan fun sku r hr => (h sku r hr).sku_eq

theorem Lawful.distinct_scan (h : s.Lawful) : s.scan.Pairwise fun a b => a.sku ≠ b.sku := by
  refine h.ascending_scan.imp ?_
  intro a b lt e
  rw [e] at lt
  exact String.lt_irrefl _ lt

/-- A scan shows units that are not contested as they were. -/
theorem Follows.scan (hs : s.Lawful) (h : Follows contested s s') :
    (s'.scan.filter fun r => !contested r.sku) = s.scan.filter fun r => !contested r.sku := by
  have irrefl : Std.Irrefl fun a b : StockRecord => a.sku.text < b.sku.text :=
    ⟨fun _ => String.lt_irrefl _⟩
  have antisymm : Std.Antisymm fun a b : StockRecord => a.sku.text < b.sku.text :=
    ⟨fun _ _ lt gt => absurd (String.lt_trans lt gt) (String.lt_irrefl _)⟩
  refine (h.lawful.ascending_scan.filter _).eq_of_mem_iff (hs.ascending_scan.filter _) ?_
  intro r
  rw [List.mem_filter, List.mem_filter, h.lawful.mem_scan_iff, hs.mem_scan_iff]
  refine and_congr_left ?_
  intro hu
  rw [h.spared r.sku (by simpa using hu)]

end Store

namespace Ledger

open Program (Obeys)

theorem Linked.wellFormed {orders : Nat → Timestamp → Command → Prop} {before : Option StockRecord}
    {es : List Entry} (h : Linked orders before es) (hb : ∀ r ∈ before, r.WellFormed) :
    ∀ e ∈ es, e.record.WellFormed := by
  induction es generalizing before with
  | nil =>
    intro e he
    cases he
  | cons d es ih =>
    obtain ⟨h1, h2⟩ := h
    have hd : d.record.WellFormed := by
      obtain ⟨base, now, command, candidate, hbase, -, -, he, -, hr⟩ := h1
      have hw : base.WellFormed := by
        cases before with
        | none =>
          rw [Write.basis?, Option.none_or] at hbase
          obtain ⟨id, -, rfl⟩ := Option.map_eq_some_iff.1 hbase
          exact StockRecord.wellFormed_empty _ _
        | some r =>
          cases hbase
          exact hb base rfl
      have hr' : d.record = candidate.atVersion (versionOf before + 1) := hr
      rw [hr']
      exact (hw.execute he).atVersion _
    intro e he
    rcases List.mem_cons.1 he with rfl | he
    · exact hd
    · refine ih h2 ?_ e he
      intro r hr
      cases hr
      exact hd

theorem lawful_reached (errands : List Errand) (turns : List Turn) :
    (reached errands turns).Lawful := by
  intro sku r h
  obtain ⟨h1, h2⟩ := load_reached h
  have tracked := tracked_map (fun _ _ p => p.stand.IsFree) Errand.obeys_program errands
  obtain ⟨ps, es, ht⟩ := tracked.exists_run turns
  obtain ⟨hs, e, he, rfl⟩ := ht.known_load h
  have start : ∀ r ∈ (none : Option StockRecord), r.WellFormed := by
    intro r hr
    cases hr
  exact ⟨h1, h2, (ht.linked sku).wellFormed start e (mem_ofUnit.2 ⟨he, hs⟩)⟩

/-! ## Surroundings -/

/-- Rivals give orders to contested units only, and to these so that every swap of the program finds
another version than it expects; the clock reads `now` throughout. -/
structure Rivalry.Contends (w : Rivalry) (contested : SkuCode → Bool) (now : Timestamp) : Prop where
  clock : ∀ n, w.world n .clock = now
  elsewhere : ∀ n q s, ∀ o ∈ w.rivals n q s, contested o.sku = true
  ahead : ∀ n candidate version (s : Store) r, s.Lawful → contested candidate.sku = true →
    (s.obeyAll (w.rivals n (.swap candidate (.exactly version)) s)).load candidate.sku = some r →
      r.version ≠ version

/-- Rivals give orders to contested units only. -/
def Rivalry.Spares (w : Rivalry) (contested : SkuCode → Bool) : Prop :=
  ∀ n q s, ∀ o ∈ w.rivals n q s, contested o.sku = true

/-- From `t` to `t'` the program has written the records `own`, and only these to units
that are not contested. -/
structure Advances (contested : SkuCode → Bool) (own : List StockRecord)
    (t t' : Rivaled) : Prop where
  spared : ∀ sku, contested sku = false → t'.store.load sku = (t.store.putAll own).load sku
  kept : ∀ sku r, t.store.load sku = some r → ∃ r', t'.store.load sku = some r'
  lawful : t'.store.Lawful
  written : t'.written = t.written ++ own

variable {w : Rivalry} {contested : SkuCode → Bool} {now : Timestamp} {t t' t'' : Rivaled}

theorem advances_refl (h : t.store.Lawful) : Advances contested [] t t :=
  ⟨fun _ _ => rfl, fun _ r hr => ⟨r, hr⟩, h, (List.append_nil _).symm⟩

theorem Advances.trans {own own' : List StockRecord} (h : Advances contested own t t')
    (h' : Advances contested own' t' t'') : Advances contested (own ++ own') t t'' where
  spared sku hk := by
    have s1 := Store.load_putAll_congr (h.spared sku hk) own'
    have s2 : t.store.putAll (own ++ own') = (t.store.putAll own).putAll own' := List.foldl_append
    rw [h'.spared sku hk, s1, s2]
  kept sku r hr := by
    obtain ⟨r', hr'⟩ := h.kept sku r hr
    exact h'.kept sku r' hr'
  lawful := h'.lawful
  written := by rw [h'.written, h.written, List.append_assoc]

theorem Rivalry.answer_swap {candidate : StockRecord} {expected : ExpectedVersion}
    {stored : StockRecord} {next : Store}
    (hs : (w.meddled (.swap candidate expected) t).swap candidate expected = .ok (stored, next)) :
    (w.answer (.swap candidate expected) t).1 = .ok stored ∧
      (w.answer (.swap candidate expected) t).2.store = next := by
  constructor
  · simp only [answer, Solo.answer, Store.answer, hs]
    rfl
  · simp only [answer, Solo.answer, Store.answer, hs]

theorem Rivalry.answer_swap_error {candidate : StockRecord} {expected : ExpectedVersion}
    {e : StoreError}
    (hs : (w.meddled (.swap candidate expected) t).swap candidate expected = .error e) :
    (w.answer (.swap candidate expected) t).1 = .error e := by
  simp only [answer, Solo.answer, Store.answer, hs]
  rfl

theorem Rivalry.Contends.spares (h : w.Contends contested now) : w.Spares contested := h.elsewhere

namespace Rivalry.Spares

theorem follows_meddled (h : w.Spares contested) (hl : t.store.Lawful) (q : Request) :
    Store.Follows contested t.store (w.meddled q t) :=
  hl.follows_obeyAll (h t.asked q t.store)

theorem advances_answer (h : w.Spares contested) (hl : t.store.Lawful) {q : Request}
    (hq : q.written? (w.answer q t).1 = none) : Advances contested [] t (w.answer q t).2 := by
  have hm := h.follows_meddled hl q
  have hs : (w.answer q t).2.store = w.meddled q t := by
    cases q with
    | insert record =>
      cases hi : (w.meddled (.insert record) t).insert record with
      | error e => simp only [answer, Solo.answer, Store.answer, hi]
      | ok p =>
        simp only [answer, Solo.answer, Store.answer, hi] at hq
        cases hq
    | swap candidate expected =>
      cases hi : (w.meddled (.swap candidate expected) t).swap candidate expected with
      | error e => simp only [answer, Solo.answer, Store.answer, hi]
      | ok p =>
        simp only [answer, Solo.answer, Store.answer, hi] at hq
        cases hq
    | _ => rfl
  constructor
  · rw [hs]
    exact hm.spared
  · rw [hs]
    exact hm.kept
  · rw [hs]
    exact hm.lawful
  · show t.written ++ (q.written? (w.answer q t).1).toList = _
    rw [hq]
    rfl

/-- A record that is put into the store is all that has been written. -/
theorem advances_put (h : w.Spares contested) (hl : t.store.Lawful) {q : Request} {r : StockRecord}
    (hr : r.Lawful r.sku) (stored : (w.answer q t).2.store = (w.meddled q t).put r)
    (replied : q.written? (w.answer q t).1 = some r) :
    Advances contested [r] t (w.answer q t).2 := by
  have hm := h.follows_meddled hl q
  refine ⟨fun sku hk => ?_, fun sku found hf => ?_, ?_, ?_⟩
  · rw [stored, Store.load_put, hm.spared sku hk]
    exact (Store.load_put t.store r sku).symm
  · obtain ⟨found', hf'⟩ := hm.kept sku found hf
    rw [stored, Store.load_put]
    split
    · exact ⟨_, rfl⟩
    · exact ⟨found', hf'⟩
  · rw [stored]
    exact hm.lawful.put hr
  · show t.written ++ (q.written? (w.answer q t).1).toList = _
    rw [replied]
    rfl

end Rivalry.Spares

/-- A program that writes nothing. -/
def Idle {α : Type} (p : Program α) : Prop :=
  p.Obeys (fun _ q reply _ => q.written? reply = none) (fun _ _ => True) ()

theorem Idle.advances {α : Type} {p : Program α} (hp : Idle p) (h : w.Spares contested)
    (hl : t.store.Lawful) :
    Advances contested [] t (p.run w.answer t).2 := by
  have start : Function.const Unit (Advances contested [] t) () t := advances_refl hl
  have keep : ∀ t' q, Advances contested [] t t' → Request.written? q (w.answer q t').1 = none →
      Advances contested [] t (w.answer q t').2 := by
    intro t' q ht hq
    exact ht.trans (h.advances_answer ht.lawful hq)
  obtain ⟨_, -, h1⟩ := hp.run start fun _ t' q _ ht hq => keep t' q ht hq
  exact h1

end Ledger

end Stockroom
