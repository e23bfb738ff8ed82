import Mathlib.Logic.Function.Basic
import Stockroom.Proofs.Ledger.Chain
import Stockroom.Proofs.Ledger.Discipline
import Stockroom.Proofs.Movement.Decision
import Stockroom.Proofs.Movement.Fitting

/-! What holds on a floor of disciplined threads, turn after turn. Every thread stands where its
discipline says, the record it may decide on is one that was written, and the writes of each unit
form a chain that ends in the stored record. A swap that succeeds has found the loaded version
stored; in a chain a version is written once, so the record it was decided on is the last one. -/
namespace Stockroom.Ledger
set_option autoImplicit false

open Program (Obeys)

variable {α : Type}

/-! ## What a thread knows -/

def Basis.Known (m : Mandate) (t : Thread α) (es : List Entry) : Basis → Prop
  | .fresh id sku => m.covers sku ∧ t.minted = some id
  | .stored sku record => m.covers sku ∧ record.sku = sku ∧ ∃ e ∈ es, e.record = record

def Stand.Known (m : Mandate) (t : Thread α) (es : List Entry) : Stand → Prop
  | .based b => b.Known m t es
  | .timed b now => b.Known m t es ∧ t.clock = some now
  | _ => True

theorem Basis.Known.append {m : Mandate} {t : Thread α} {es : List Entry} {b : Basis}
    (h : b.Known m t es) (fs : List Entry) : b.Known m t (es ++ fs) := by
  cases b with
  | fresh id sku => exact h
  | stored sku record =>
    obtain ⟨h0, h1, e, he, h2⟩ := h
    exact ⟨h0, h1, e, List.mem_append_left _ he, h2⟩

theorem Stand.Known.append {m : Mandate} {t : Thread α} {es : List Entry} {s : Stand}
    (h : s.Known m t es) (fs : List Entry) : s.Known m t (es ++ fs) := by
  cases s with
  | based b => exact Basis.Known.append h fs
  | timed b now => exact ⟨h.1.append fs, h.2⟩
  | _ => trivial

theorem Thread.hear_rest (t : Thread α) (rest : Program α) (q : Request) (reply : q.Reply) :
    (t.hear rest q reply).rest = rest := by
  cases q <;> rfl

/-- Hearing an aside leaves what was known before. -/
theorem Stand.Known.hear_aside {m : Mandate} {t : Thread α} {es : List Entry} {s : Stand}
    {q : Request} (h : s.Known m t es) (hq : Request.IsAside q) (rest : Program α)
    (reply : q.Reply) : s.Known m (t.hear rest q reply) es := by
  have e1 : (t.hear rest q reply).clock = t.clock := by cases q <;> first | rfl | cases hq
  have e2 : (t.hear rest q reply).minted = t.minted := by cases q <;> first | rfl | cases hq
  cases s with
  | based b => cases b <;> first | exact h | exact ⟨h.1, e2.trans h.2⟩
  | timed b now =>
    obtain ⟨h1, h2⟩ := h
    refine ⟨?_, e1.trans h2⟩
    cases b <;> first | exact h1 | exact ⟨h1.1, e2.trans h1.2⟩
  | _ => trivial

/-- A result is that of a thread which has finished. -/
theorem Floor.exists_thread (f : Floor α) {i : Nat} {a : α} (h : f.result? i = some a) :
    ∃ t, f.threads[i]? = some t ∧ t.rest = .done a := by
  unfold Floor.result? at h
  split at h
  · rename_i ht
    cases h
    exact ⟨_, ht, rfl⟩
  · cases h

/-! ## Decisions that are stored -/

variable {m : Nat → Mandate}

/-- A record that was inserted continues a unit of which there was none. -/
theorem continues_insert {w : Write} {s : Store} {id : Uuid} {sku : SkuCode} {now : Timestamp}
    {candidate : StockRecord} {events : List Event} {store : Store}
    (hd : (m w.thread).Decides (.fresh id sku) now candidate events) (hm : w.minted = some id)
    (hc : w.clock = some now) (hi : s.insert candidate = .ok (w.record, store)) :
    w.Continues (fun i => (m i).orders) (s.load w.record.sku) events ∧ w.record.sku = sku ∧
      w.record.IsConsistent ∧ store = s.put w.record := by
  obtain ⟨-, -, hcons, hnone, hrec, rfl⟩ := Store.insert_eq_ok_iff.1 hi
  obtain ⟨command, ho, he, hne⟩ := hd
  have hsku : w.record.sku = sku := by
    rw [hrec, (StockRecord.execute_eq_ok_iff.1 he).2]
    exact StockRecord.sku_applyAll _ _
  have hnone' : s.load w.record.sku = none := by rw [hrec]; exact hnone
  refine ⟨⟨_, now, command, candidate, ?_, hc, ho, he, hne, ?_⟩,
    hsku, by rw [hrec]; exact hcons, by rw [hrec]⟩
  · rw [hnone', Write.basis?, hm, hsku]
    rfl
  · rw [hnone', hrec]
    rfl

/-- A record that was swapped in continues the one it was decided on, if that is the
only one of its version. -/
theorem continues_swap {w : Write} {s : Store} {sku : SkuCode} {current : StockRecord}
    {now : Timestamp} {candidate : StockRecord} {events : List Event} {store : Store}
    (hd : (m w.thread).Decides (.stored sku current) now candidate events) (hk : current.sku = sku)
    (hc : w.clock = some now)
    (hu : ∀ r, s.load sku = some r → current.version = r.version → current = r)
    (hi : s.swap candidate (.exactly current.version) = .ok (w.record, store)) :
    w.Continues (fun i => (m i).orders) (s.load w.record.sku) events ∧ w.record.sku = sku ∧
      w.record.IsConsistent ∧ store = s.put w.record := by
  obtain ⟨hcons, stored, hl, hv, -, hrec, rfl⟩ := Store.swap_eq_ok_iff.1 hi
  obtain ⟨command, ho, he, hne⟩ := hd
  have hsku : candidate.sku = sku := by
    rw [(StockRecord.execute_eq_ok_iff.1 he).2, StockRecord.sku_applyAll]
    exact hk
  rw [hsku] at hl
  have same : current = stored := hu stored hl (Store.matches_exactly.1 hv)
  have hl' : s.load w.record.sku = some stored := by
    rw [hrec, ← hl, ← hsku]
    rfl
  refine ⟨⟨current, now, command, candidate, ?_, hc, ho, he, hne, ?_⟩,
    ?_, by rw [hrec]; exact hcons, by rw [hrec]⟩
  · rw [hl', same]
    rfl
  · rw [hl', hrec]
    rfl
  · rw [hrec]
    exact hsku

/-! ## The invariant -/

/-- The floor, seen with the progress of each thread and the events of each write. -/
structure Tracked (m : Nat → Mandate) (post : Nat → α → Progress → Prop) (f : Floor α)
    (ps : Nat → Progress) (es : List Entry) : Prop where
  obeys : ∀ (i : Nat) (t : Thread α), f.threads[i]? = some t →
    t.rest.Obeys (Move (m i)) (post i) (ps i)
  known : ∀ (i : Nat) (t : Thread α), f.threads[i]? = some t → (ps i).stand.Known (m i) t es
  absent : ∀ i, f.threads[i]? = none → ps i = ⟨.free, []⟩
  writes : f.writes = es.map Entry.write
  made : ∀ i, (es.filter fun e => e.write.thread = i).map Entry.commit = (ps i).made
  store : ∀ sku, f.store.load sku = (ofUnit sku es).getLast?.map Entry.record
  linked : ∀ sku, Linked (fun i => (m i).orders) none (ofUnit sku es)
  covered : ∀ e ∈ es, (m e.write.thread).covers e.record.sku
  consistent : ∀ e ∈ es, e.record.IsConsistent

variable {post : Nat → α → Progress → Prop} {f : Floor α} {ps : Nat → Progress}
  {es : List Entry}

theorem tracked_start {programs : List (Program α)}
    (h : ∀ (i : Nat) (p : Program α), programs[i]? = some p →
      p.Obeys (Move (m i)) (post i) ⟨.free, []⟩) :
    Tracked m post (.start programs) (fun _ => ⟨.free, []⟩) [] where
  obeys i t ht := by
    obtain ⟨p, hp, rfl⟩ := Option.map_eq_some_iff.1 ((List.getElem?_map ..).symm.trans ht)
    exact h i p hp
  known i t ht := trivial
  absent i ht := rfl
  writes := rfl
  made i := rfl
  store sku := rfl
  linked sku := trivial
  covered e he := by cases he
  consistent e he := by cases he

/-- Programs that keep to their mandates from the start. -/
theorem tracked_map {ι : Type} {program : ι → Program α} {mandate : ι → Mandate}
    (post : Mandate → α → Progress → Prop)
    (h : ∀ x, (program x).Obeys (Move (mandate x)) (post (mandate x)) ⟨.free, []⟩) (xs : List ι) :
    Tracked (mandateOf (xs.map mandate)) (fun i => post (mandateOf (xs.map mandate) i))
      (.start (xs.map program))
      (fun _ => ⟨.free, []⟩) [] := by
  refine tracked_start fun i p hp => ?_
  obtain ⟨x, hx, rfl⟩ := Option.map_eq_some_iff.1 ((List.getElem?_map ..).symm.trans hp)
  have s : mandateOf (xs.map mandate) i = mandate x := by rw [mandateOf, List.getElem?_map, hx]; rfl
  rw [s]
  exact h x

namespace Tracked

/-- A record that is loaded was written, under the key it was asked for by. -/
theorem known_load (h : Tracked m post f ps es) {sku : SkuCode} {record : StockRecord}
    (hl : f.store.load sku = some record) : record.sku = sku ∧ ∃ e ∈ es, e.record = record := by
  rw [h.store sku] at hl
  obtain ⟨e, he, rfl⟩ := Option.map_eq_some_iff.1 hl
  obtain ⟨h1, h2⟩ := mem_ofUnit.1 (List.mem_of_getLast? he)
  exact ⟨h2, e, h1, rfl⟩

/-- One entry of a unit has a version. -/
theorem eq_of_key_eq (h : Tracked m post f ps es) {d e : Entry} (hd : d ∈ es) (he : e ∈ es)
    (hs : d.record.sku = e.record.sku) (hv : d.record.version = e.record.version) : d = e := by
  have s1 := (h.linked e.record.sku).getElem?_version (mem_ofUnit.2 ⟨hd, hs⟩)
  have s2 := (h.linked e.record.sku).getElem?_version (mem_ofUnit.2 ⟨he, rfl⟩)
  rw [hv] at s1
  exact Option.some.inj (s1.symm.trans s2)

/-- The version of a new entry is greater than those before it. -/
theorem version_lt {e : Entry} (h : Tracked m post f ps (es ++ [e])) {d : Entry} (hd : d ∈ es)
    (hs : d.record.sku = e.record.sku) : d.record.version < e.record.version := by
  have s1 := (h.linked e.record.sku).ascending
  rw [ofUnit_append, if_pos rfl] at s1
  exact (List.pairwise_append.1 s1).2.2 d (mem_ofUnit.2 ⟨hd, hs⟩) e List.mem_cons_self

/-! ## One turn -/

variable {turn : Turn} {t : Thread α} {q : Request} {next : q.Reply → Program α} {reply : q.Reply}
  {p : Progress}

/-- Only the thread whose turn it is moves on. -/
theorem threads_set (good : Nat → Thread α → Progress → Prop) {i : Nat} {new : Thread α}
    (h : ∀ (j : Nat) (t : Thread α), f.threads[j]? = some t → j ≠ i → good j t (ps j))
    (hn : good i new p) :
    ∀ (j : Nat) (t : Thread α), (f.threads.set i new)[j]? = some t →
      good j t (Function.update ps i p j) := by
  intro j t' ht'
  rw [List.getElem?_set] at ht'
  by_cases hj : i = j
  · subst hj
    rw [if_pos rfl] at ht'
    split at ht'
    · cases ht'
      rw [Function.update_self]
      exact hn
    · cases ht'
  · rw [if_neg hj] at ht'
    rw [Function.update_of_ne (Ne.symm hj)]
    exact h j t' ht' (Ne.symm hj)

theorem absent_set (h : Tracked m post f ps es) {i : Nat} {old new : Thread α}
    (ht : f.threads[i]? = some old) {j : Nat} (hj : (f.threads.set i new)[j]? = none)
    (p : Progress) : Function.update ps i p j = ⟨.free, []⟩ := by
  have hl : f.threads.length ≤ j := by
    rw [← List.length_set]
    exact List.getElem?_eq_none_iff.1 hj
  have ne : j ≠ i := by
    rintro rfl
    cases ht.symm.trans (List.getElem?_eq_none_iff.2 hl)
  rw [Function.update_of_ne ne]
  exact h.absent j (List.getElem?_eq_none_iff.2 hl)

theorem stay (h : Tracked m post f ps es) (ht : f.threads[turn.thread]? = some t)
    (hr : f.store.answer turn.chance q = (reply, f.store)) (hw : q.written? reply = none)
    (hm : p.made = (ps turn.thread).made)
    (hk : p.stand.Known (m turn.thread) (t.hear (next reply) q reply) es)
    (ho : (next reply).Obeys (Move (m turn.thread)) (post turn.thread) p) :
    Tracked m post (f.advance turn t q next) (Function.update ps turn.thread p) es where
  obeys := by
    refine threads_set (fun j t p => t.rest.Obeys (Move (m j)) (post j) p)
      (fun j t' ht' _ => h.obeys j t' ht') ?_
    rw [Thread.hear_rest, hr]
    exact ho
  known := by
    refine threads_set (fun j t p => p.stand.Known (m j) t es)
      (fun j t' ht' _ => h.known j t' ht') ?_
    rw [hr]
    exact hk
  absent i hi := h.absent_set ht hi p
  writes := by
    show f.writes ++ _ = _
    rw [hr, hw, h.writes]
    exact List.append_nil _
  made i := by
    rw [h.made]
    by_cases hi : i = turn.thread
    · subst hi
      rw [Function.update_self, hm]
    · rw [Function.update_of_ne hi]
  store sku := by
    show (f.store.answer turn.chance q).2.load sku = _
    rw [hr, h.store]
  linked := h.linked
  covered := h.covered
  consistent := h.consistent

/-- A write of the next version of its unit, continuing what the store holds. -/
theorem grow (h : Tracked m post f ps es) (ht : f.threads[turn.thread]? = some t) {e : Entry}
    (he : e.write = ⟨turn.thread, e.record, t.clock, t.minted⟩)
    (hr : f.store.answer turn.chance q = (reply, f.store.put e.record))
    (hw : q.written? reply = some e.record)
    (hm : p = ⟨.owing e.record e.events, (ps turn.thread).made ++ [e.commit]⟩)
    (ho : (next reply).Obeys (Move (m turn.thread)) (post turn.thread) p)
    (hl : e.write.Continues (fun i => (m i).orders) (f.store.load e.record.sku) e.events)
    (hv : (m turn.thread).covers e.record.sku) (hc : e.record.IsConsistent) :
    Tracked m post (f.advance turn t q next) (Function.update ps turn.thread p) (es ++ [e]) where
  obeys := by
    refine threads_set (fun j t p => t.rest.Obeys (Move (m j)) (post j) p)
      (fun j t' ht' _ => h.obeys j t' ht') ?_
    rw [Thread.hear_rest, hr]
    exact ho
  known := by
    refine threads_set (fun j t p => p.stand.Known (m j) t _)
      (fun j t' ht' _ => (h.known j t' ht').append _) ?_
    rw [hm]
    trivial
  absent i hi := h.absent_set ht hi p
  writes := by
    show f.writes ++ _ = _
    rw [hr, hw, h.writes, List.map_append, List.map_singleton, he]
    rfl
  made i := by
    have ht : e.write.thread = turn.thread := congrArg Write.thread he
    rw [List.filter_append, List.map_append, h.made]
    by_cases hi : i = turn.thread
    · subst hi
      rw [Function.update_self, hm, List.filter_cons_of_pos (by simp [ht])]
      rfl
    · rw [Function.update_of_ne hi, 
        List.filter_cons_of_neg (by simpa using fun e => hi (e.symm.trans ht))]
      exact List.append_nil _
  store sku := by
    show (f.store.answer turn.chance q).2.load sku = _
    rw [hr, Store.load_put, ofUnit_append]
    by_cases hk : e.record.sku = sku
    · rw [if_pos hk.symm, if_pos hk, List.getLast?_concat]
      rfl
    · rw [if_neg (Ne.symm hk), if_neg hk, h.store]
  linked sku := by
    rw [ofUnit_append]
    by_cases hk : e.record.sku = sku
    · subst hk
      rw [if_pos rfl, linked_append_singleton]
      refine ⟨h.linked _, ?_⟩
      rw [lastRecord, Option.or_none, ← h.store]
      exact hl
    · rw [if_neg hk]
      exact h.linked sku
  covered d hd := by
    rcases List.mem_append.1 hd with hd | hd
    · exact h.covered d hd
    · rw [List.mem_singleton.1 hd, he]
      exact hv
  consistent d hd := by
    rcases List.mem_append.1 hd with hd | hd
    · exact h.consistent d hd
    · rw [List.mem_singleton.1 hd]
      exact hc

/-- The record of a version that a unit has in store is the stored one. -/
theorem eq_of_version_eq (h : Tracked m post f ps es) {sku : SkuCode} {current r : StockRecord}
    {c : Mandate} (hk : (Basis.stored sku current).Known c t es) (hl : f.store.load sku = some r)
    (hv : current.version = r.version) : current = r := by
  obtain ⟨-, hs, d, hd, rfl⟩ := hk
  rw [h.store] at hl
  obtain ⟨e, he, rfl⟩ := Option.map_eq_some_iff.1 hl
  have same : d = e := (h.linked sku).eq_of_version_eq (mem_ofUnit.2 ⟨hd, hs⟩) he hv
  rw [same]

/-- What an answered question adds to the entries: nothing, or the one written record, about which
its thread then owes all messages. -/
def Adds (i : Nat) (q : Request) (reply : q.Reply) (p : Progress) (es es' : List Entry) : Prop :=
  (q.written? reply = none ∧ es' = es) ∨
    ∃ e : Entry, q.written? reply = some e.record ∧ es' = es ++ [e] ∧ e.write.thread = i ∧
      p.stand = .owing e.record e.events

/-- One answered question, and what is tracked before and after it. -/
structure Answered (m : Nat → Mandate) (post : Nat → α → Progress → Prop) (f : Floor α)
    (ps : Nat → Progress) (es : List Entry) (turn : Turn) (t : Thread α) (q : Request)
    (next : q.Reply → Program α) (p : Progress) (es' : List Entry) : Prop where
  before : Tracked m post f ps es
  move : Move (m turn.thread) (ps turn.thread) q (f.store.answer turn.chance q).1 p
  adds : Adds turn.thread q (f.store.answer turn.chance q).1 p es es'
  after : Tracked m post (f.advance turn t q next) (Function.update ps turn.thread p) es'

theorem advance (h : Tracked m post f ps es) (ht : f.threads[turn.thread]? = some t)
    (hq : t.rest = .ask q next) :
    ∃ p es', Answered m post f ps es turn t q next p es' := by
  suffices s : ∃ p es', Move (m turn.thread) (ps turn.thread) q (f.store.answer turn.chance q).1 p ∧
      Adds turn.thread q (f.store.answer turn.chance q).1 p es es' ∧
      Tracked m post (f.advance turn t q next) (Function.update ps turn.thread p) es' by
    obtain ⟨p, es', s1, s2, s3⟩ := s
    exact ⟨p, es', h, s1, s2, s3⟩
  have ho := h.obeys _ t ht
  rw [hq] at ho
  obtain ⟨p, hm, hn⟩ := ho (f.store.answer turn.chance q).1
  have hk := h.known _ t ht
  generalize hr : f.store.answer turn.chance q = a at hm hn ⊢
  obtain ⟨reply, store⟩ := a
  generalize hp : ps turn.thread = before at hm hk
  have hm' := hm
  cases hm with
  | aside ha =>
    have hs : store = f.store := by cases q <;> first | exact (Prod.mk.inj hr).2.symm | cases ha
    have hw : q.written? reply = none := by cases q <;> first | rfl | cases ha
    subst hs
    exact ⟨_, es, hm', .inl ⟨hw, rfl⟩, h.stay ht hr hw (by rw [hp]) (hk.hear_aside ha _ _) hn⟩
  | found hf hc =>
    obtain ⟨h1, rfl⟩ := Prod.mk.inj hr
    exact ⟨_, es, hm', .inl ⟨rfl, rfl⟩,
      h.stay ht hr rfl (by rw [hp]) ⟨hc, h.known_load (Except.ok.inj h1)⟩ hn⟩
  | missed hf =>
    obtain ⟨h1, rfl⟩ := Prod.mk.inj hr
    exact ⟨_, es, hm', .inl ⟨rfl, rfl⟩, h.stay ht hr rfl (by rw [hp]) trivial hn⟩
  | minted hf hc =>
    obtain ⟨h1, rfl⟩ := Prod.mk.inj hr
    exact ⟨_, es, hm', .inl ⟨rfl, rfl⟩, h.stay ht hr rfl (by rw [hp]) ⟨hc, rfl⟩ hn⟩
  | looked =>
    obtain ⟨h1, rfl⟩ := Prod.mk.inj hr
    exact ⟨_, es, hm', .inl ⟨rfl, rfl⟩, h.stay ht hr rfl (by rw [hp]) trivial hn⟩
  | @timed b =>
    obtain ⟨h1, rfl⟩ := Prod.mk.inj hr
    have hk' : (Stand.timed b reply).Known (m turn.thread)
        (t.hear (next reply) .clock reply) es := by
      cases b <;> exact ⟨hk, rfl⟩
    exact ⟨_, es, hm', .inl ⟨rfl, rfl⟩, h.stay ht hr rfl (by rw [hp]) hk' hn⟩
  | @inserted id sku now made candidate record events hd =>
    let e : Entry := ⟨⟨turn.thread, record, t.clock, t.minted⟩, events⟩
    have hi := Store.insert_of_answer hr
    obtain ⟨hl, hs, hc, rfl⟩ := continues_insert (w := e.write) hd hk.1.2 hk.2 hi
    have hv : (m turn.thread).covers e.record.sku := hs ▸ hk.1.1
    exact ⟨_, _, hm', .inr ⟨e, rfl, rfl, rfl, rfl⟩,
      h.grow ht (e := e) rfl hr rfl (by rw [hp]; rfl) hn hl hv hc⟩
  | @swapped sku current now made candidate record events hd =>
    let e : Entry := ⟨⟨turn.thread, record, t.clock, t.minted⟩, events⟩
    have hi := Store.swap_of_answer hr
    obtain ⟨hl, hs, hc, rfl⟩ :=
      continues_swap (w := e.write) hd hk.1.2.1 hk.2
        (fun r hl hv => h.eq_of_version_eq hk.1 hl hv) hi
    have hv : (m turn.thread).covers e.record.sku := hs ▸ hk.1.1
    exact ⟨_, _, hm', .inr ⟨e, rfl, rfl, rfl, rfl⟩,
      h.grow ht (e := e) rfl hr rfl (by rw [hp]; rfl) hn hl hv hc⟩
  | notInserted =>
    cases Store.eq_of_answer_insert_error hr
    exact ⟨_, es, hm', .inl ⟨rfl, rfl⟩, h.stay ht hr rfl (by rw [hp]) trivial hn⟩
  | notSwapped =>
    cases Store.eq_of_answer_swap_error hr
    exact ⟨_, es, hm', .inl ⟨rfl, rfl⟩, h.stay ht hr rfl (by rw [hp]) trivial hn⟩
  | named =>
    obtain ⟨h1, rfl⟩ := Prod.mk.inj hr
    exact ⟨_, es, hm', .inl ⟨rfl, rfl⟩, h.stay ht hr rfl (by rw [hp]) trivial hn⟩
  | offered =>
    obtain ⟨h1, rfl⟩ := Prod.mk.inj hr
    exact ⟨_, es, hm', .inl ⟨rfl, rfl⟩, h.stay ht hr rfl (by rw [hp]) trivial hn⟩

/-! ## Runs -/

/-- Along a run everything stays tracked, and so does whatever else is kept by single turns. -/
theorem run {I : Floor α → (Nat → Progress) → List Entry → Prop}
    (keep : ∀ {f ps es turn t q next p es'}, Answered m post f ps es turn t q next p es' →
      I f ps es → I (f.advance turn t q next) (Function.update ps turn.thread p) es')
    (h : Tracked m post f ps es) (hi : I f ps es) (turns : List Turn) :
    ∃ ps' es', Tracked m post (f.run turns) ps' es' ∧ I (f.run turns) ps' es' := by
  induction turns generalizing f ps es with
  | nil => exact ⟨ps, es, h, hi⟩
  | cons turn turns ih =>
    show ∃ ps' es', Tracked m post ((f.step turn).run turns) ps' es' ∧
        I ((f.step turn).run turns) ps' es'
    unfold Floor.step
    cases ht : f.threads[turn.thread]? with
    | none => exact ih h hi
    | some t =>
      dsimp only
      split
      · exact ih h hi
      · rename_i q next hq
        obtain ⟨p, es', s⟩ := h.advance ht hq
        exact ih s.after (keep s hi)

theorem exists_run (h : Tracked m post f ps es) (turns : List Turn) :
    ∃ ps' es', Tracked m post (f.run turns) ps' es' := by
  obtain ⟨ps', es', h', -⟩ := h.run (I := fun _ _ _ => True) (fun _ _ => trivial) trivial turns
  exact ⟨ps', es', h'⟩

/-- A thread that has finished has ended as its programs do. -/
theorem ended (h : Tracked m post f ps es) {i : Nat} {a : α}
    (hr : f.result? i = some a) : post i a (ps i) := by
  obtain ⟨t, ht, hd⟩ := f.exists_thread hr
  have ho := h.obeys i t ht
  rw [hd] at ho
  exact ho

end Tracked

end Stockroom.Ledger
