import Stockroom.Proofs.Ledger.Tracking

/-! What the messages on a floor tell. The messages about one version of a unit tell of the events
it was written for, in their order, but for those that its thread still owes. Messages about
different versions may come in any order. -/
namespace Stockroom.Ledger
set_option autoImplicit false

/-- The messages about one version of a unit. -/
def noticesOf (r : StockRecord) (offered : List Envelope) : List Envelope :=
  offered.filter fun v => v.sku = r.sku ∧ v.sequenceNumber = r.version

theorem noticesOf_append (r d : StockRecord) (offered : List Envelope) (id : Uuid) (event : Event) :
    noticesOf r (offered ++ [.about id d event]) =
      if d.sku = r.sku ∧ d.version = r.version then noticesOf r offered ++ [.about id d event]
      else noticesOf r offered := by
  unfold noticesOf
  rw [List.filter_append]
  by_cases h : d.sku = r.sku ∧ d.version = r.version <;> simp [Envelope.about, h]

structure Announced {α : Type} (f : Floor α) (ps : Nat → Progress) (es : List Entry) : Prop where
  told : ∀ e ∈ es, Told (noticesOf e.record f.offered) e.commit (ps e.write.thread).stand
  owed : ∀ i r, (ps i).stand.pending r ≠ [] → ∃ e ∈ es, e.write.thread = i ∧ e.record = r
  known : ∀ v ∈ f.offered, ∃ e ∈ es, v.sku = e.record.sku ∧ v.sequenceNumber = e.record.version

variable {α : Type} {m : Nat → Mandate} {post : Nat → α → Progress → Prop} {f f' : Floor α}
  {ps : Nat → Progress} {es : List Entry} {i : Nat} {p : Progress}

theorem announced_start (programs : List (Program α)) :
    Announced (.start programs) (fun _ => ⟨.free, []⟩) [] where
  told e he := by cases he
  owed i r h := absurd rfl h
  known v hv := by cases hv

namespace Announced

theorem stay (h : Announced f ps es) (ho : f'.offered = f.offered)
    (hp : ∀ r, p.stand.pending r = (ps i).stand.pending r) :
    Announced f' (Function.update ps i p) es := by
  have hs (j : Nat) (r : StockRecord) :
      (Function.update ps i p j).stand.pending r = (ps j).stand.pending r := by
    by_cases hj : j = i
    · subst hj
      rw [Function.update_self]
      exact hp r
    · rw [Function.update_of_ne hj]
  refine ⟨fun e he => ?_, fun j r hr => ?_, fun v hv => ?_⟩
  · rw [ho]
    exact (h.told e he).congr (hs _ _)
  · rw [hs] at hr
    exact h.owed j r hr
  · rw [ho] at hv
    exact h.known v hv

/-- A new entry: all its events are owed, and no message is about it yet. -/
theorem write {e : Entry} (h : Announced f ps es)
    (ht : Tracked m post f' (Function.update ps i p) (es ++ [e])) (ho : f'.offered = f.offered)
    (he : e.write.thread = i) (hp : p.stand = .owing e.record e.events)
    (hn : ∀ r, (ps i).stand.pending r = []) :
    Announced f' (Function.update ps i p) (es ++ [e]) where
  told d hd := by
    rw [ho]
    rcases List.mem_append.1 hd with hd | hd
    · refine (h.told d hd).congr ?_
      by_cases hj : d.write.thread = i
      · have ne : e.record ≠ d.record := by
          intro same
          have lt := ht.version_lt hd (congrArg StockRecord.sku same).symm
          rw [same] at lt
          exact Nat.lt_irrefl _ lt
        rw [hj, Function.update_self, hp, hn]
        exact if_neg ne
      · rw [Function.update_of_ne hj]
    · rw [List.mem_singleton.1 hd, he, Function.update_self, hp]
      have none : noticesOf e.record f.offered = [] := by
        refine List.filter_eq_nil_iff.2 fun v hv hk => ?_
        obtain ⟨h1, h2⟩ := of_decide_eq_true hk
        obtain ⟨c, hc, h3, h4⟩ := h.known v hv
        have lt := ht.version_lt hc (h3.symm.trans h1)
        omega
      rw [none]
      exact told_nil (if_pos rfl)
  owed j r hr := by
    by_cases hj : j = i
    · subst hj
      rw [Function.update_self, hp, Stand.pending] at hr
      refine ⟨e, List.mem_append_right _ List.mem_cons_self, he, ?_⟩
      by_contra ne
      exact hr (if_neg ne)
    · rw [Function.update_of_ne hj] at hr
      obtain ⟨d, hd, h1⟩ := h.owed j r hr
      exact ⟨d, List.mem_append_left _ hd, h1⟩
  known v hv := by
    rw [ho] at hv
    obtain ⟨d, hd, h1⟩ := h.known v hv
    exact ⟨d, List.mem_append_left _ hd, h1⟩

/-- A message about the next event that is owed. -/
theorem offer {id : Uuid} {record : StockRecord} {event : Event} {events : List Event}
    (h : Announced f ps es) (ht : Tracked m post f' (Function.update ps i p) es)
    (ho : f'.offered = f.offered ++ [.about id record event])
    (hs : (ps i).stand = .naming record (event :: events) id)
    (hp : p.stand = .owing record events) :
    Announced f' (Function.update ps i p) es := by
  have owes : (ps i).stand.pending record ≠ [] := by
    rw [hs, Stand.pending, if_pos rfl]
    exact List.cons_ne_nil _ _
  obtain ⟨d, hd, hdi, rfl⟩ := h.owed i record owes
  refine ⟨fun e he => ?_, fun j r hr => ?_, fun v hv => ?_⟩
  · rw [ho, noticesOf_append]
    by_cases hk : d.record.sku = e.record.sku ∧ d.record.version = e.record.version
    · have same : d = e := ht.eq_of_key_eq hd he hk.1 hk.2
      subst same
      have s1 := h.told d hd
      rw [hdi, hs] at s1
      rw [if_pos hk, hdi, Function.update_self, hp]
      exact s1.offer
    · rw [if_neg hk]
      refine (h.told e he).congr ?_
      have ne : d.record ≠ e.record := fun same => hk ⟨congrArg _ same, congrArg _ same⟩
      by_cases hj : e.write.thread = i
      · rw [hj, Function.update_self, hp, hs]
        exact (if_neg ne).trans (if_neg ne).symm
      · rw [Function.update_of_ne hj]
  · by_cases hj : j = i
    · subst hj
      rw [Function.update_self, hp, Stand.pending] at hr
      refine ⟨d, hd, hdi, ?_⟩
      by_contra ne
      exact hr (if_neg ne)
    · rw [Function.update_of_ne hj] at hr
      exact h.owed j r hr
  · rw [ho] at hv
    rcases List.mem_append.1 hv with hv | hv
    · exact h.known v hv
    · rw [List.mem_singleton.1 hv]
      exact ⟨d, hd, rfl, rfl⟩

end Announced

/-- What is announced is kept by every turn. -/
theorem announced_advance {turn : Turn} {t : Thread α} {q : Request} {next : q.Reply → Program α}
    {p : Progress} {es' : List Entry} (hs : Tracked.Answered m post f ps es turn t q next p es')
    (h : Announced f ps es) :
    Announced (f.advance turn t q next) (Function.update ps turn.thread p) es' := by
  obtain ⟨-, hm, ha, ht⟩ := hs
  have ho : (f.advance turn t q next).offered = f.offered ++ q.offers := rfl
  obtain ⟨h1, h2, h3⟩ | ⟨h1, h2, h3⟩ | ⟨id, record, event, events, h1, h2, h3, h4⟩ :=
    hm.cases_pending
  · obtain ⟨-, rfl⟩ | ⟨e, hw, -⟩ := ha
    · rw [h1, List.append_nil] at ho
      exact h.stay ho h3
    · cases h2.symm.trans hw
  · obtain ⟨hw, -⟩ | ⟨e, hw, rfl, he, hp⟩ := ha
    · rw [hw] at h2
      cases h2
    · rw [h1, List.append_nil] at ho
      exact h.write ht ho he hp h3
  · obtain ⟨-, rfl⟩ | ⟨e, hw, -⟩ := ha
    · rw [h1] at ho
      exact h.offer ht ho h3 h4
    · cases h2.symm.trans hw

end Stockroom.Ledger
