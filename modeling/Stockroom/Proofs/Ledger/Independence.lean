import Stockroom.Proofs.Ledger.Atomicity
import Stockroom.Proofs.Ledger.Confinement

/-! Units are independent. What a call about one unit answers, stores and publishes is a matter
of that unit's stored record, so calls about other units can be left out of a session, or
change places with it. -/
namespace Stockroom.Ledger
set_option autoImplicit false

open Program (Confined)

variable {k : SkuCode} {v : Visit} {bus : List Envelope → Envelope → Option String}

/-! ## Two runs of a confined program -/

/-- Two runs that began with `t₀` and `u₀` and have gone alike for the unit. -/
structure Alike (k : SkuCode) (t₀ u₀ t u : Solo) : Prop where
  same : t.store.load k = u.store.load k
  filed : ∀ r, t.store.load k = some r → r.sku = k
  asked : t.asked = u.asked
  others : ∀ j, j ≠ k → t.store.load j = t₀.store.load j ∧ u.store.load j = u₀.store.load j
  offered : ∃ es, (∀ e ∈ es, e.sku = k) ∧ t.offered = t₀.offered ++ es ∧
    u.offered = u₀.offered ++ es

variable {t₀ u₀ t u t' u' : Solo}

/-- A question that no store and no bus takes notice of. -/
theorem Alike.aside (h : Alike k t₀ u₀ t u) (ht : t'.store = t.store) (hu : u'.store = u.store)
    (ha : t'.asked = u'.asked) (hto : t'.offered = t.offered) (huo : u'.offered = u.offered) :
    Alike k t₀ u₀ t' u' where
  same := by rw [ht, hu, h.same]
  filed := by
    rw [ht]
    exact h.filed
  asked := ha
  others := by
    rw [ht, hu]
    exact h.others
  offered := by
    rw [hto, huo]
    exact h.offered

theorem Alike.put (h : Alike k t₀ u₀ t u) {r : StockRecord} (hr : r.sku = k)
    (ht : t'.store = t.store.put r) (hu : u'.store = u.store.put r) (ha : t'.asked = u'.asked)
    (hto : t'.offered = t.offered) (huo : u'.offered = u.offered) : Alike k t₀ u₀ t' u' where
  same := by
    subst hr
    rw [ht, hu, Store.load_put_self, Store.load_put_self]
  filed found hf := by
    subst hr
    rw [ht, Store.load_put_self] at hf
    cases hf
    rfl
  asked := ha
  others j hj := by
    subst hr
    rw [ht, hu, Store.load_put_of_ne _ _ hj, Store.load_put_of_ne _ _ hj]
    exact h.others j hj
  offered := by
    rw [hto, huo]
    exact h.offered

theorem Alike.offer (h : Alike k t₀ u₀ t u) {e : Envelope} (he : e.sku = k)
    (ht : t'.store = t.store) (hu : u'.store = u.store) (ha : t'.asked = u'.asked)
    (hto : t'.offered = t.offered ++ [e]) (huo : u'.offered = u.offered ++ [e]) :
    Alike k t₀ u₀ t' u' where
  same := by rw [ht, hu, h.same]
  filed := by
    rw [ht]
    exact h.filed
  asked := ha
  others := by
    rw [ht, hu]
    exact h.others
  offered := by
    obtain ⟨es, h1, h2, h3⟩ := h.offered
    refine ⟨es ++ [e], ?_, ?_, ?_⟩
    · intro d hd
      rcases List.mem_append.1 hd with hd | hd
      · exact h1 d hd
      · rw [List.mem_singleton.1 hd, he]
    · rw [hto, h2, List.append_assoc]
    · rw [huo, h3, List.append_assoc]

/-- A bus that takes every message. -/
def quiet (world : Nat → (q : Request) → q.Reply) : World := ⟨world, fun _ _ => none⟩

theorem Alike.answer (h : Alike k t₀ u₀ t u) (world : Nat → (q : Request) → q.Reply) {q : Request}
    (hq : q.IsAbout k) : (Solo.answer (quiet world) q t).1 = (Solo.answer (quiet world) q u).1 ∧
      Request.Fits k q (Solo.answer (quiet world) q t).1 ∧
      Alike k t₀ u₀ (Solo.answer (quiet world) q t).2 (Solo.answer (quiet world) q u).2 := by
  have next : t.asked + 1 = u.asked + 1 := congrArg (· + 1) h.asked
  cases q with
  | load sku =>
    have hk : sku = k := hq
    subst hk
    refine ⟨congrArg Except.ok h.same, ?_, h.aside rfl rfl next rfl rfl⟩
    intro r hr
    exact h.filed r (Except.ok.inj hr)
  | insert record =>
    have hk : record.sku = k := hq
    subst hk
    rcases Store.insert_congr h.same with ⟨e, h1, h2⟩ | ⟨stored, hs, h1, h2⟩
    · simp only [Solo.answer, Store.answer, h1, h2, Request.Fits]
      refine ⟨rfl, ?_, h.aside rfl rfl next rfl rfl⟩
      intro r hr
      cases hr
    · simp only [Solo.answer, Store.answer, h1, h2, Request.Fits]
      refine ⟨rfl, ?_, h.put hs rfl rfl next rfl rfl⟩
      intro r hr
      rw [← Except.ok.inj hr, hs]
  | swap candidate expected =>
    have hk : candidate.sku = k := hq
    subst hk
    rcases Store.swap_congr h.same expected with ⟨e, h1, h2⟩ | ⟨stored, hs, h1, h2⟩
    · simp only [Solo.answer, Store.answer, h1, h2, Request.Fits]
      refine ⟨rfl, ?_, h.aside rfl rfl next rfl rfl⟩
      intro r hr
      cases hr
    · simp only [Solo.answer, Store.answer, h1, h2, Request.Fits]
      refine ⟨rfl, ?_, h.put hs rfl rfl next rfl rfl⟩
      intro r hr
      rw [← Except.ok.inj hr, hs]
  | scan => exact absurd hq not_false
  | publish envelope => exact ⟨rfl, trivial, h.offer hq rfl rfl h.asked rfl rfl⟩
  | note entry => exact ⟨rfl, trivial, h⟩
  | _ =>
    simp only [Solo.answer, Store.answer, h.asked]
    exact ⟨trivial, trivial, h.aside rfl rfl rfl rfl rfl⟩

theorem Confined.run_alike {α : Type} {post : α → Prop} {p : Program α} (hp : p.Confined k post)
    (world : Nat → (q : Request) → q.Reply) (h : Alike k t₀ u₀ t u) :
    (p.run (Solo.answer (quiet world)) t).1 = (p.run (Solo.answer (quiet world)) u).1 ∧
      Alike k t₀ u₀ (p.run (Solo.answer (quiet world)) t).2
        (p.run (Solo.answer (quiet world)) u).2 :=
  hp.run h fun _ _ _ h hq => h.answer world hq

/-! ## One call -/

theorem indifferent_get (sku : SkuCode) : Indifferent (get sku) := by
  refine (indifferent_request rfl).bind fun reply => ?_
  cases reply with
  | error e => exact indifferent_pure _
  | ok found => cases found <;> exact indifferent_pure _

theorem Visit.indifferent_program (v : Visit) : Indifferent v.program := by
  obtain ⟨config, world, service⟩ := v
  cases service with
  | perform task =>
    have s1 : Indifferent (task.program config) := by
      rw [Task.program_eq]
      exact (indifferent_settle config task).bind fun _ => indifferent_pure _
    exact s1.bind fun _ => indifferent_pure _
  | get sku => exact (indifferent_get sku).bind fun _ => indifferent_pure _
  | status sku => exact ((indifferent_get sku).bind fun _ => indifferent_pure _).bind fun _ =>
    indifferent_pure _
  | reservation sku id =>
    have s1 : Indifferent (Ledger.reservation sku id) := by
      refine (indifferent_get sku).bind fun result => ?_
      cases result with
      | error e => exact indifferent_pure _
      | ok record =>
        dsimp only
        split <;> exact indifferent_pure _
    exact s1.bind fun _ => indifferent_pure _

namespace Session

/-- Every record is stored under its own unit. -/
def Filed (s : Session) : Prop := ∀ sku r, s.store.load sku = some r → r.sku = sku

/-- How a call is served in two sessions that have the same record of its unit. -/
structure Matches (bus : List Envelope → Envelope → Option String) (s d : Session)
    (v : Visit) : Prop where
  response : (s.serve bus v).1 = (d.serve bus v).1
  same : (s.serve bus v).2.store.load v.sku = (d.serve bus v).2.store.load v.sku
  filed : ∀ r, (s.serve bus v).2.store.load v.sku = some r → r.sku = v.sku
  others : ∀ j, j ≠ v.sku → (s.serve bus v).2.store.load j = s.store.load j ∧
    (d.serve bus v).2.store.load j = d.store.load j
  offered : ∃ es, (∀ e ∈ es, e.sku = v.sku) ∧ (s.serve bus v).2.offered = s.offered ++ es ∧
    (d.serve bus v).2.offered = d.offered ++ es

variable {s d : Session}

theorem matches_serve (bus : List Envelope → Envelope → Option String) (hs : s.Filed)
    (h : s.store.load v.sku = d.store.load v.sku) : Matches bus s d v := by
  have start : Alike v.sku ⟨s.store, 0, s.offered⟩ ⟨d.store, 0, d.offered⟩ ⟨s.store, 0, s.offered⟩
      ⟨d.store, 0, d.offered⟩ :=
    ⟨h, hs v.sku, rfl, fun _ _ => ⟨rfl, rfl⟩, [], nofun, (List.append_nil _).symm,
      (List.append_nil _).symm⟩
  obtain ⟨h1, h2⟩ := Confined.run_alike v.confined_program v.world start
  -- the bus may answer either session as it likes
  have deaf : ∀ d : Session, d.serve bus v =
      ((v.program.run (Solo.answer (quiet v.world)) ⟨d.store, 0, d.offered⟩).1,
        ⟨(v.program.run (Solo.answer (quiet v.world)) ⟨d.store, 0, d.offered⟩).2.store,
          (v.program.run (Solo.answer (quiet v.world)) ⟨d.store, 0, d.offered⟩).2.offered⟩) := by
    intro d
    have hv := v.indifferent_program (quiet v.world) bus ⟨d.store, 0, d.offered⟩
    simp only [serve, ← hv]
    rfl
  constructor
  · rw [deaf, deaf]
    exact h1
  · rw [deaf, deaf]
    exact h2.same
  · rw [deaf]
    exact h2.filed
  · rw [deaf, deaf]
    exact h2.others
  · rw [deaf, deaf]
    exact h2.offered

theorem Filed.serve (h : s.Filed) (bus : List Envelope → Envelope → Option String) (v : Visit) :
    (s.serve bus v).2.Filed := by
  have hm := matches_serve (d := s) bus h (v := v) rfl
  intro sku r hr
  by_cases hk : sku = v.sku
  · subst hk
    exact hm.filed r hr
  · rw [(hm.others sku hk).1] at hr
    exact h sku r hr

theorem Filed.run (h : s.Filed) (bus : List Envelope → Envelope → Option String) (vs : List Visit) :
    (s.run bus vs).Filed := by
  induction vs generalizing s with
  | nil => exact h
  | cons v vs ih => exact ih (h.serve bus v)

/-! ## Leaving out -/

/-- Two sessions that have the same record of a unit and have published the same about it. -/
structure Mirrors (k : SkuCode) (s d : Session) : Prop where
  filed : s.Filed
  same : s.store.load k = d.store.load k
  envelopes : s.offered.filter (fun e => e.sku = k) = d.offered.filter fun e => e.sku = k

theorem Mirrors.own (h : Mirrors k s d) (bus : List Envelope → Envelope → Option String)
    (hv : v.sku = k) :
    (s.serve bus v).1 = (d.serve bus v).1 ∧ Mirrors k (s.serve bus v).2 (d.serve bus v).2 := by
  subst hv
  have hm := matches_serve bus h.filed h.same
  refine ⟨hm.response, h.filed.serve bus v, hm.same, ?_⟩
  obtain ⟨es, -, h1, h2⟩ := hm.offered
  rw [h1, h2, List.filter_append, List.filter_append, h.envelopes]

theorem Mirrors.other (h : Mirrors k s d) (bus : List Envelope → Envelope → Option String)
    (hv : v.sku ≠ k) : Mirrors k (s.serve bus v).2 d := by
  have hm := matches_serve (d := s) bus h.filed (v := v) rfl
  refine ⟨h.filed.serve bus v, (hm.others k (Ne.symm hv)).1.trans h.same, ?_⟩
  obtain ⟨es, he, h1, -⟩ := hm.offered
  have none : es.filter (fun e => e.sku = k) = [] := by
    refine List.filter_eq_nil_iff.2 ?_
    intro e hm
    rw [he e hm]
    simpa using hv
  rw [h1, List.filter_append, none, List.append_nil]
  exact h.envelopes

theorem Mirrors.run (h : Mirrors k s d) (bus : List Envelope → Envelope → Option String)
    (vs : List Visit) :
    (s.responses bus vs).filter (fun x => x.1 = k) =
      d.responses bus (vs.filter fun v => v.sku = k) ∧
      Mirrors k (s.run bus vs) (d.run bus (vs.filter fun v => v.sku = k)) := by
  induction vs generalizing s d with
  | nil => exact ⟨rfl, h⟩
  | cons v vs ih =>
    by_cases hv : v.sku = k
    · obtain ⟨h1, h2⟩ := h.own bus hv
      obtain ⟨h3, h4⟩ := ih h2
      rw [responses, List.filter_cons_of_pos (by simpa using hv),
        List.filter_cons_of_pos (by simpa using hv)]
      refine ⟨?_, h4⟩
      rw [responses, h1, h3]
    · obtain ⟨h3, h4⟩ := ih (h.other bus hv)
      rw [responses, List.filter_cons_of_neg (by simpa using hv),
        List.filter_cons_of_neg (by simpa using hv)]
      exact ⟨h3, h4⟩

/-! ## Changing places -/

theorem responses_congr (bus : List Envelope → Envelope → Option String) (hs : s.Filed)
    (h : s.store = d.store) (vs : List Visit) :
    s.responses bus vs = d.responses bus vs ∧ (s.run bus vs).store = (d.run bus vs).store := by
  induction vs generalizing s d with
  | nil => exact ⟨rfl, h⟩
  | cons v vs ih =>
    have hm := matches_serve bus hs (congrArg (fun m => m.load v.sku) h)
    have next : (s.serve bus v).2.store = (d.serve bus v).2.store := by
      refine Store.eq_of_load_eq ?_
      intro j
      by_cases hj : j = v.sku
      · rw [hj, hm.same]
      · rw [(hm.others j hj).1, (hm.others j hj).2, h]
    obtain ⟨h1, h2⟩ := ih (hs.serve bus v) next
    rw [responses, responses, hm.response, h1]
    exact ⟨rfl, h2⟩

theorem serve_comm (bus : List Envelope → Envelope → Option String) (hs : s.Filed) {v w : Visit}
    (h : v.sku ≠ w.sku) :
    ((s.serve bus w).2.serve bus v).1 = (s.serve bus v).1 ∧
      ((s.serve bus v).2.serve bus w).1 = (s.serve bus w).1 ∧
      ((s.serve bus w).2.serve bus v).2.store = ((s.serve bus v).2.serve bus w).2.store := by
  have hv := matches_serve (d := s) bus hs (v := v) rfl
  have hw := matches_serve (d := s) bus hs (v := w) rfl
  have hwv := matches_serve bus (hs.serve bus w) (hw.others v.sku h).1
  have hvw := matches_serve bus (hs.serve bus v) (hv.others w.sku (Ne.symm h)).1
  refine ⟨hwv.response, hvw.response, Store.eq_of_load_eq ?_⟩
  intro j
  by_cases hj : j = v.sku
  · subst hj
    rw [hwv.same, (hvw.others v.sku h).1]
  · by_cases hj' : j = w.sku
    · subst hj'
      rw [hvw.same, (hwv.others w.sku hj).1]
    · rw [(hwv.others j hj).1, (hw.others j hj').1, (hvw.others j hj').1, (hv.others j hj).1]

theorem run_append (s : Session) (bus : List Envelope → Envelope → Option String)
    (vs ws : List Visit) :
    s.run bus (vs ++ ws) = (s.run bus vs).run bus ws := by
  induction vs generalizing s with
  | nil => rfl
  | cons v vs ih => exact ih (s.serve bus v).2

theorem responses_append (s : Session) (bus : List Envelope → Envelope → Option String)
    (vs ws : List Visit) :
    s.responses bus (vs ++ ws) = s.responses bus vs ++ (s.run bus vs).responses bus ws := by
  induction vs generalizing s with
  | nil => rfl
  | cons v vs ih => exact congrArg (_ :: ·) (ih (s.serve bus v).2)

/-! ## Independence -/

/-- The calls of a session are independent of those about other units. -/
structure Independent (bus : List Envelope → Envelope → Option String) (s : Session)
    (visits : List Visit) : Prop where
  /-- For each unit it makes no difference to leave out all calls about others. -/
  ofUnit : ∀ k,
    (s.responses bus visits).filter (fun x => x.1 = k) =
        s.responses bus (visits.filter fun v => v.sku = k) ∧
      (s.run bus visits).store.load k =
        (s.run bus (visits.filter fun v => v.sku = k)).store.load k ∧
      (s.run bus visits).offered.filter (fun e => e.sku = k) =
        (s.run bus (visits.filter fun v => v.sku = k)).offered.filter fun e => e.sku = k
  /-- Two calls about different units, one after the other, may change places. -/
  swap : ∀ before v w after, visits = before ++ v :: w :: after → v.sku ≠ w.sku →
    (s.run bus (before ++ w :: v :: after)).store = (s.run bus visits).store ∧
      ∃ x y rest, s.responses bus visits =
          s.responses bus before ++ (v.sku, x) :: (w.sku, y) :: rest ∧
        s.responses bus (before ++ w :: v :: after) =
          s.responses bus before ++ (w.sku, y) :: (v.sku, x) :: rest

theorem independent_of_filed (bus : List Envelope → Envelope → Option String) (hs : s.Filed)
    (visits : List Visit) : Independent bus s visits where
  ofUnit k := by
    have start : Mirrors k s s := ⟨hs, rfl, rfl⟩
    obtain ⟨h1, h2⟩ := start.run bus visits
    exact ⟨h1, h2.same, h2.envelopes⟩
  swap := by
    rintro before v w after rfl h
    have hb := hs.run bus before
    obtain ⟨h1, h2, h3⟩ := serve_comm bus hb h
    have hf := (hb.serve bus w).serve bus v
    obtain ⟨h4, h5⟩ := responses_congr bus hf h3 after
    let rest := (((s.run bus before).serve bus v).2.serve bus w).2.responses bus after
    refine ⟨?_, ((s.run bus before).serve bus v).1,
      ((s.run bus before).serve bus w).1, rest, ?_, ?_⟩
    · rw [run_append, run_append]
      exact h5
    · rw [responses_append, responses, responses, h2]
    · rw [responses_append, responses, responses, h1, h4]

end Session

/-- Whatever calls have led to the store, and whatever the bus answers. -/
theorem independent_reached (errands : List Errand) (turns : List Turn) (offered : List Envelope)
    (bus : List Envelope → Envelope → Option String) (visits : List Visit) :
    Session.Independent bus ⟨reached errands turns, offered⟩ visits :=
  Session.independent_of_filed bus (fun _ _ h => (load_reached h).1) visits

end Stockroom.Ledger
