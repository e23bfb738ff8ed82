import Stockroom.Proofs.Document.Sorting
import Stockroom.Proofs.Ledger.Announcement
import Stockroom.Proofs.Movement.Range

/-! Records rebuilt from messages. When nothing is owed any more, the messages about a unit, in the
order of their numbers, are the events of its chain one write after the other, and to apply these
gives the stored record. -/
namespace Stockroom.Ledger
set_option autoImplicit false

/-- The messages about a unit, in the order of their numbers. -/
def streamOf (sku : SkuCode) (received : List Envelope) : List Envelope :=
  Envelope.sort (received.filter fun v => v.sku = sku)

/-- The record that the messages about a unit tell of, at the greatest of their numbers. -/
def replay? (sku : SkuCode) (received : List Envelope) : Option StockRecord := do
  let stream := streamOf sku received
  let first ← stream.head?
  let events ← stream.mapM fun v => Event.ofJson? v.payload
  let version ← (stream.map Envelope.sequenceNumber).max?
  return ((StockRecord.empty first.recordId first.sku).applyAll events).atVersion version

/-! ## Chains -/

variable {orders : Nat → Timestamp → Command → Prop}

theorem Write.Continues.basis_eq {before : Option StockRecord} {w : Write} {events : List Event}
    (h : w.Continues orders before events) :
    ∃ base, w.basis? before = some base ∧
      w.record = (base.applyAll events).atVersion (versionOf before + 1) := by
  obtain ⟨base, now, command, candidate, h1, -, -, he, -, hr⟩ := h
  obtain ⟨-, rfl⟩ := StockRecord.execute_eq_ok_iff.1 he
  exact ⟨base, h1, hr⟩

theorem Linked.id_eq {r : StockRecord} {es : List Entry} (h : Linked orders (some r) es) {e : Entry}
    (he : e ∈ es) : e.record.id = r.id := by
  induction es generalizing r with
  | nil => cases he
  | cons d es ih =>
    obtain ⟨base, hb, hr⟩ := h.1.basis_eq
    cases hb
    have s1 : d.record.id = r.id := by
      show d.write.record.id = r.id
      rw [hr]
      exact StockRecord.id_applyAll r d.events
    rcases List.mem_cons.1 he with rfl | he
    · exact s1
    · exact (ih h.2 he).trans s1

/-- From one record of a chain on, the events of the later ones lead to the last of them. -/
theorem Linked.applyAll_events {r l : StockRecord} {es : List Entry} (h : Linked orders (some r) es)
    (hl : lastRecord (some r) es = some l) (v : Nat) :
    (r.applyAll (es.flatMap Entry.events)).atVersion v = l.atVersion v := by
  induction es generalizing r with
  | nil =>
    cases hl
    rfl
  | cons e es ih =>
    obtain ⟨base, hb, hr⟩ := h.1.basis_eq
    cases hb
    change e.record = _ at hr
    rw [lastRecord_cons] at hl
    rw [List.flatMap_cons, StockRecord.applyAll_append, ← ih h.2 hl, hr,
      StockRecord.applyAll_atVersion]
    rfl

theorem Linked.rebuild {l : StockRecord} {es : List Entry} (h : Linked orders none es)
    (hl : lastRecord none es = some l) :
    ((StockRecord.empty l.id l.sku).applyAll (es.flatMap Entry.events)).atVersion l.version = l ∧
      ∀ e ∈ es, e.record.id = l.id := by
  cases es with
  | nil => cases hl
  | cons e es =>
    obtain ⟨base, hb, hr⟩ := h.1.basis_eq
    change e.record = _ at hr
    rw [Write.basis?, Option.none_or] at hb
    obtain ⟨id, -, rfl⟩ := Option.map_eq_some_iff.1 hb
    rw [lastRecord_cons] at hl
    have s1 (v : Nat) : ((StockRecord.empty ⟨id⟩ e.write.record.sku).applyAll
        ((e :: es).flatMap Entry.events)).atVersion v = l.atVersion v := by
      rw [List.flatMap_cons, StockRecord.applyAll_append, ← h.2.applyAll_events hl, hr,
        StockRecord.applyAll_atVersion]
      rfl
    have s2 : l.id = ⟨id⟩ := by
      have s := congrArg StockRecord.id (s1 0)
      exact s.symm.trans (StockRecord.id_applyAll _ _)
    have s3 : l.sku = e.write.record.sku := by
      have s := congrArg StockRecord.sku (s1 0)
      exact s.symm.trans (StockRecord.sku_applyAll _ _)
    have s4 : e.record.id = l.id := by
      rw [hr, s2]
      exact StockRecord.id_applyAll _ _
    refine ⟨?_, fun d hd => ?_⟩
    · rw [s2, s3]
      exact s1 l.version
    · rcases List.mem_cons.1 hd with rfl | hd
      · exact s4
      · exact (h.2.id_eq hd).trans s4

/-! ## Numbers in range -/

/-- No creation that is ordered starts with numbers beyond a word of 64 bits. -/
def OrdersInRange (orders : Nat → Timestamp → Command → Prop) : Prop :=
  ∀ i now c details, orders i now c → c.action = .create details → details.InRange

theorem Write.Continues.isWritable {before : Option StockRecord} {w : Write} {events : List Event}
    (h : w.Continues orders before events) (ho : OrdersInRange orders)
    (hb : ∀ r ∈ before, r.WellFormed ∧ fitsInt64 r.onHand = true) :
    (∀ e ∈ events, e.change.IsWritable) ∧ w.record.WellFormed ∧
      fitsInt64 w.record.onHand = true := by
  obtain ⟨base, now, command, candidate, h1, -, hc, he, -, hr⟩ := h
  have s1 : base.WellFormed ∧ fitsInt64 base.onHand = true := by
    cases before with
    | none =>
      rw [Write.basis?, Option.none_or] at h1
      obtain ⟨id, -, rfl⟩ := Option.map_eq_some_iff.1 h1
      exact ⟨StockRecord.wellFormed_empty _ _, rfl⟩
    | some r =>
      cases h1
      exact hb base rfl
  obtain ⟨s2, s3⟩ := s1.1.isWritable_execute s1.2 he fun details hd =>
    ho _ now command details hc hd
  have s4 : candidate.WellFormed := s1.1.execute he
  rw [hr]
  exact ⟨s2, s4.atVersion _, s3⟩

theorem Linked.isWritable {before : Option StockRecord} {es : List Entry}
    (h : Linked orders before es) (ho : OrdersInRange orders)
    (hb : ∀ r ∈ before, r.WellFormed ∧ fitsInt64 r.onHand = true) :
    ∀ e ∈ es, ∀ event ∈ e.events, event.change.IsWritable := by
  induction es generalizing before with
  | nil =>
    intro e he
    cases he
  | cons d es ih =>
    obtain ⟨s1, s2⟩ := h.1.isWritable ho hb
    intro e he
    rcases List.mem_cons.1 he with rfl | he
    · exact s1
    · refine ih h.2 (fun r hr => ?_) e he
      cases hr
      exact s2

/-! ## The stream of a unit -/

theorem mem_noticesOf {r : StockRecord} {offered : List Envelope} {v : Envelope} :
    v ∈ noticesOf r offered ↔ v ∈ offered ∧ v.sku = r.sku ∧ v.sequenceNumber = r.version := by
  simp [noticesOf]

theorem numbered_noticesOf (r : StockRecord) (offered : List Envelope) :
    Envelope.numbered r.version (noticesOf r offered) =
      Envelope.numbered r.version (offered.filter fun v => v.sku = r.sku) := by
  rw [Envelope.numbered, Envelope.numbered, noticesOf, List.filter_filter, List.filter_filter]
  refine List.filter_congr fun v _ => ?_
  by_cases hk : v.sequenceNumber = r.version <;> simp [hk]

theorem numbered_notices_eq_nil {es : List Entry} {offered : List Envelope} {n : Nat}
    (h : ∀ e ∈ es, e.record.version ≠ n) :
    Envelope.numbered n (es.flatMap fun e => noticesOf e.record offered) = [] := by
  refine List.filter_eq_nil_iff.2 fun v hv hk => ?_
  obtain ⟨e, he, hv⟩ := List.mem_flatMap.1 hv
  exact h e he ((mem_noticesOf.1 hv).2.2.symm.trans (of_decide_eq_true hk))

variable {α : Type} {m : Nat → Mandate} {post : Nat → α → Progress → Prop} {f : Floor α}
  {ps : Nat → Progress} {es : List Entry}

/-- The messages with one number are about the write of that version. -/
theorem numbered_groups (ht : Tracked m post f ps es) (ha : Announced f ps es) (sku : SkuCode)
    (n : Nat) :
    Envelope.numbered n ((ofUnit sku es).flatMap fun e => noticesOf e.record f.offered) =
      Envelope.numbered n (f.offered.filter fun v => v.sku = sku) := by
  by_cases hx : ∃ e ∈ ofUnit sku es, e.record.version = n
  · obtain ⟨e, he, rfl⟩ := hx
    obtain ⟨-, rfl⟩ := mem_ofUnit.1 he
    have asc := (ht.linked e.record.sku).ascending
    obtain ⟨ds, cs, hs⟩ := List.append_of_mem he
    rw [hs] at asc ⊢
    obtain ⟨-, s1, s2⟩ := List.pairwise_append.1 asc
    have s3 : ∀ d ∈ ds, d.record.version ≠ e.record.version := by
      intro d hd
      have lt := s2 d hd e List.mem_cons_self
      omega
    have s4 : ∀ c ∈ cs, c.record.version ≠ e.record.version := by
      intro c hc
      have lt := (List.pairwise_cons.1 s1).1 c hc
      omega
    rw [Envelope.numbered, List.flatMap_append, List.flatMap_cons,
      List.filter_append, List.filter_append]
    change Envelope.numbered _ _ ++ (Envelope.numbered _ _ ++ Envelope.numbered _ _) = _
    rw [numbered_notices_eq_nil s3, numbered_notices_eq_nil s4, numbered_noticesOf,
      List.nil_append, List.append_nil]
  · rw [numbered_notices_eq_nil fun e he hn => hx ⟨e, he, hn⟩]
    refine (List.filter_eq_nil_iff.2 fun v hv hk => hx ?_).symm
    obtain ⟨hv, hs⟩ := List.mem_filter.1 hv
    obtain ⟨e, he, h1, h2⟩ := ha.known v hv
    exact ⟨e, mem_ofUnit.2 ⟨he, h1.symm.trans (of_decide_eq_true hs)⟩,
      h2.symm.trans (of_decide_eq_true hk)⟩

theorem mem_streamOf {sku : SkuCode} {received : List Envelope} {v : Envelope} :
    v ∈ streamOf sku received ↔ v ∈ received ∧ v.sku = sku := by
  rw [streamOf, Envelope.mem_sort, List.mem_filter, decide_eq_true_iff]

theorem streamOf_eq (ht : Tracked m post f ps es) (ha : Announced f ps es) (sku : SkuCode) :
    streamOf sku f.offered = (ofUnit sku es).flatMap fun e => noticesOf e.record f.offered := by
  refine Envelope.eq_of_numbered_eq (Envelope.ascending_sort _) ?_ fun n => ?_
  · refine List.pairwise_flatMap.2
      ⟨fun e _ => ?_, (ht.linked sku).ascending.imp fun {d e} lt v hv w hw => ?_⟩
    · exact Envelope.ascending_of_number fun v hv => (mem_noticesOf.1 hv).2.2
    · rw [(mem_noticesOf.1 hv).2.2, (mem_noticesOf.1 hw).2.2]
      exact Nat.le_of_lt lt
  · rw [streamOf, Envelope.numbered_sort, numbered_groups ht ha]

/-! ## Reading the messages -/

theorem mapM_payload {r : StockRecord} {vs : List Envelope} {events : List Event}
    (h : List.Forall₂ (Tells r) vs events) (hw : ∀ event ∈ events, event.change.IsWritable) :
    vs.mapM (fun v => Event.ofJson? v.payload) = some events := by
  induction h with
  | nil => rfl
  | @cons v event vs events hv _ ih =>
    obtain ⟨id, rfl⟩ := hv
    have s1 : Event.ofJson? (Envelope.about id r event).payload = some event :=
      Event.ofJson?_toJson (hw event List.mem_cons_self)
    rw [List.mapM_cons, s1, ih fun e he => hw e (List.mem_cons_of_mem _ he)]
    rfl

theorem mapM_groups {offered : List Envelope} {es : List Entry}
    (h : ∀ e ∈ es, List.Forall₂ (Tells e.record) (noticesOf e.record offered) e.events)
    (hw : ∀ e ∈ es, ∀ event ∈ e.events, event.change.IsWritable) :
    (es.flatMap fun e => noticesOf e.record offered).mapM (fun v => Event.ofJson? v.payload) =
      some (es.flatMap Entry.events) := by
  induction es with
  | nil => rfl
  | cons e es ih =>
    rw [List.flatMap_cons, List.mapM_append,
      mapM_payload (h e List.mem_cons_self) (hw e List.mem_cons_self),
      ih (fun d hd => h d (List.mem_cons_of_mem _ hd)) fun d hd => hw d (List.mem_cons_of_mem _ hd)]
    rfl

/-- The messages about a unit tell of the record: they rebuild it, they bear the numbers of all its
versions, and each names the type of the event that it carries. -/
structure Rebuilds (received : List Envelope) (sku : SkuCode) (record : StockRecord) : Prop where
  replayed : replay? sku received = some record
  numbers : ∀ n, (∃ v ∈ received, v.sku = sku ∧ v.sequenceNumber = n) ↔ 1 ≤ n ∧ n ≤ record.version
  typed : ∀ v ∈ received, v.sku = sku →
    ∃ event, Event.ofJson? v.payload = some event ∧ v.eventType = event.type
  identified : ∀ v ∈ received, v.sku = sku → v.recordId = record.id

theorem Write.Continues.events_ne_nil {before : Option StockRecord} {w : Write}
    {events : List Event} (h : w.Continues orders before events) : events ≠ [] := by
  obtain ⟨base, now, command, candidate, -, -, -, -, hne, -⟩ := h
  exact hne

theorem mem_of_forall₂ {β γ : Type} {R : β → γ → Prop} {xs : List β} {ys : List γ}
    (h : List.Forall₂ R xs ys) {x : β} (hx : x ∈ xs) : ∃ y ∈ ys, R x y := by
  induction h with
  | nil => cases hx
  | @cons a b xs ys hab _ ih =>
    rcases List.mem_cons.1 hx with rfl | hx
    · exact ⟨b, List.mem_cons_self, hab⟩
    · obtain ⟨y, hy, hr⟩ := ih hx
      exact ⟨y, List.mem_cons_of_mem _ hy, hr⟩

/-- Every write has been told of in full. -/
def AllTold (f : Floor α) (es : List Entry) : Prop :=
  ∀ e ∈ es, List.Forall₂ (Tells e.record) (noticesOf e.record f.offered) e.events

/-- Every message about a unit is about one entry of its chain, whether or not all events of
that have been told of. -/
theorem Announced.source (ha : Announced f ps es) {sku : SkuCode} {v : Envelope}
    (hv : v ∈ f.offered) (hs : v.sku = sku) :
    ∃ e ∈ ofUnit sku es, v.sequenceNumber = e.record.version ∧ ∃ event ∈ e.events,
      Tells e.record v event := by
  obtain ⟨e, he, h1, h2⟩ := ha.known v hv
  obtain ⟨done, h3, h4⟩ := ha.told e he
  obtain ⟨event, h5, h6⟩ := mem_of_forall₂ h4 (mem_noticesOf.2 ⟨hv, h1, h2⟩)
  have h7 : event ∈ e.events := by
    rw [show e.events = done ++ _ from h3]
    exact List.mem_append_left _ h5
  exact ⟨e, mem_ofUnit.2 ⟨he, h1.symm.trans hs⟩, h2, event, h7, h6⟩

theorem exists_number_iff (ht : Tracked m post f ps es) (ha : Announced f ps es)
    (told : AllTold f es) {sku : SkuCode} {record : StockRecord}
    (last : lastRecord none (ofUnit sku es) = some record) (n : Nat) :
    (∃ v ∈ f.offered, v.sku = sku ∧ v.sequenceNumber = n) ↔ 1 ≤ n ∧ n ≤ record.version := by
  have linked := ht.linked sku
  rw [← linked.length_eq last, ← linked.exists_version_iff]
  constructor
  · rintro ⟨v, hv, hs, rfl⟩
    obtain ⟨e, he, h1, -⟩ := ha.source hv hs
    exact ⟨e, he, h1.symm⟩
  · rintro ⟨e, he, rfl⟩
    obtain ⟨h1, rfl⟩ := mem_ofUnit.1 he
    obtain ⟨before, hc⟩ := linked.continues he
    obtain ⟨event, h2⟩ := List.exists_mem_of_ne_nil _ hc.events_ne_nil
    obtain ⟨v, h3, -⟩ := mem_of_forall₂ (told e h1).flip h2
    exact ⟨v, mem_noticesOf.1 h3⟩

/-- The greatest number in the stream of a unit is the version of its last record. -/
theorem max?_streamOf (ht : Tracked m post f ps es) (ha : Announced f ps es) (told : AllTold f es)
    {sku : SkuCode} {record : StockRecord} (last : lastRecord none (ofUnit sku es) = some record) :
    ((streamOf sku f.offered).map Envelope.sequenceNumber).max? = some record.version := by
  have members (n : Nat) : n ∈ (streamOf sku f.offered).map Envelope.sequenceNumber ↔
      1 ≤ n ∧ n ≤ record.version := by
    rw [← exists_number_iff ht ha told last, List.mem_map]
    simp only [mem_streamOf, and_assoc]
  have nonempty : 1 ≤ record.version := by
    rw [← (ht.linked sku).length_eq last]
    exact List.length_pos_iff.2 fun e => by rw [e] at last; cases last
  exact List.max?_eq_some_iff.2 ⟨(members _).2 ⟨nonempty, Nat.le_refl _⟩,
    fun n hn => ((members n).1 hn).2⟩

theorem replay?_eq (ht : Tracked m post f ps es) (ha : Announced f ps es) (told : AllTold f es)
    {sku : SkuCode} {record : StockRecord} (hl : f.store.load sku = some record)
    (last : lastRecord none (ofUnit sku es) = some record)
    (writable : ∀ e ∈ ofUnit sku es, ∀ event ∈ e.events, event.change.IsWritable) :
    replay? sku f.offered = some record := by
  obtain ⟨rebuilt, same⟩ := (ht.linked sku).rebuild last
  have greatest := max?_streamOf ht ha told last
  have decoded := mapM_groups (fun e he => told e (mem_ofUnit.1 he).1) writable
  rw [← streamOf_eq ht ha sku] at decoded
  cases hh : (streamOf sku f.offered).head? with
  | none =>
    rw [List.head?_eq_none_iff.1 hh] at greatest
    cases greatest
  | some v =>
    obtain ⟨hv, hs⟩ := mem_streamOf.1 (List.mem_of_head? hh)
    obtain ⟨e, he, -, event, -, id, rfl⟩ := ha.source hv hs
    have h2 : e.record.id = record.id := same e he
    have h3 : e.record.sku = record.sku := hs.trans (ht.known_load hl).1.symm
    simp only [replay?, hh, decoded, greatest, Option.bind_eq_bind, Option.bind_some]
    show some (((StockRecord.empty e.record.id e.record.sku).applyAll _).atVersion
      record.version) = _
    rw [h2, h3, rebuilt]

/-- When every thread is free of debts, the messages rebuild what the store holds. -/
theorem rebuilds_of_isFree (ht : Tracked m post f ps es) (ha : Announced f ps es)
    (hp : ∀ i, (ps i).stand.IsFree) (ho : OrdersInRange fun i => (m i).orders) {sku : SkuCode}
    {record : StockRecord} (hl : f.store.load sku = some record) :
    Rebuilds f.offered sku record := by
  have told : AllTold f es := fun e he => (ha.told e he).complete (hp _)
  have writable := (ht.linked sku).isWritable ho fun r hr => by cases hr
  have last : lastRecord none (ofUnit sku es) = some record := by
    rw [lastRecord, Option.or_none, ← ht.store, hl]
  refine ⟨replay?_eq ht ha told hl last writable,
    exists_number_iff ht ha told last, fun v hv hs => ?_, fun v hv hs => ?_⟩
  · obtain ⟨e, he, -, event, h1, id, rfl⟩ := ha.source hv hs
    exact ⟨event, Event.ofJson?_toJson (writable e he event h1), rfl⟩
  · obtain ⟨e, he, -, event, h1, id, rfl⟩ := ha.source hv hs
    exact ((ht.linked sku).rebuild last).2 e he

end Stockroom.Ledger
