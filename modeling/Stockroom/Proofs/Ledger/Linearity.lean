import Stockroom.Proofs.Ledger.Conduct
import Stockroom.Proofs.Ledger.Tracking

/-! Any number of tasks at once over one store come to the same as a sequence of commands on each
unit. Whatever the order of their turns, the records of a unit are successive, each decided on the
one before; a task that committed has written one of them, and no other task has written any. A task
that answers without events has found a record of which its command makes none. -/
namespace Stockroom.Ledger
set_option autoImplicit false

/-- A thread has had nothing to do: of a record that was written, its own command at its reading of
the clock makes no events. -/
structure Floor.Idles {α : Type} (ms : List Mandate) (f : Floor α) (i : Nat)
    (record : StockRecord) : Prop where
  written : ∃ w ∈ f.chain record.sku, w.record = record
  covered : (mandateOf ms i).covers record.sku
  decided : ∃ t now command, f.threads[i]? = some t ∧ t.clock = some now ∧
    (mandateOf ms i).orders now command ∧ record.execute command = .ok (record, [])

/-- The floor is what a sequence of commands leaves, one unit at a time. -/
structure Floor.IsLinear (ms : List Mandate) (f : Floor (Except LedgerError Commit)) : Prop where
  versions : ∀ sku, (f.chain sku).map (fun w => w.record.version) =
    List.range' 1 (f.chain sku).length
  stored : ∀ sku, f.store.load sku = (f.chain sku).getLast?.map Write.record
  first : ∀ sku w, (f.chain sku)[0]? = some w →
    ∃ events, w.Continues (fun i => (mandateOf ms i).orders) none events
  next : ∀ sku n v w, (f.chain sku)[n]? = some v → (f.chain sku)[n + 1]? = some w →
    ∃ events, w.Continues (fun i => (mandateOf ms i).orders) (some v.record) events
  covered : ∀ w ∈ f.writes, (mandateOf ms w.thread).covers w.record.sku
  consistent : ∀ w ∈ f.writes, w.record.IsConsistent
  committed : ∀ i c, f.result? i = some (.ok c) → c.events ≠ [] →
    ∃ w, f.owned i = [w] ∧ w.record = c.record ∧
      (f.chain c.record.sku)[c.record.version - 1]? = some w
  idle : ∀ i c, f.result? i = some (.ok c) → c.events = [] → f.owned i = [] ∧ f.Idles ms i c.record
  failed : ∀ i e, f.result? i = some (.error e) → f.owned i = []

namespace Tracked

variable {α : Type} {m : Nat → Mandate} {post : Nat → α → Progress → Prop} {f : Floor α}
  {ps : Nat → Progress} {es : List Entry}

theorem chain_eq (h : Tracked m post f ps es) (sku : SkuCode) :
    f.chain sku = (ofUnit sku es).map Entry.write := by
  rw [Floor.chain, h.writes, List.filter_map]
  rfl

theorem owned_eq (h : Tracked m post f ps es) (i : Nat) :
    f.owned i = (es.filter fun e => e.write.thread = i).map Entry.write := by
  rw [Floor.owned, h.writes, List.filter_map]
  rfl

/-- A thread that has made nothing owns nothing. -/
theorem owned_of_made_nil (h : Tracked m post f ps es) {i : Nat}
    (hm : (ps i).made = []) : f.owned i = [] := by
  have s := h.made i
  rw [hm, List.map_eq_nil_iff] at s
  rw [h.owned_eq, s]
  rfl

/-- A thread that has made one commit owns one write, which stands in the chain of its unit. -/
theorem owned_of_made_singleton (h : Tracked m post f ps es) {i : Nat} {c : Commit}
    (hm : (ps i).made = [c]) :
    ∃ w, f.owned i = [w] ∧ w.record = c.record ∧
      (f.chain c.record.sku)[c.record.version - 1]? = some w := by
  have s := h.made i
  rw [hm, List.map_eq_singleton_iff] at s
  obtain ⟨e, s, rfl⟩ := s
  have he : e ∈ ofUnit e.record.sku es := by
    have s' : e ∈ es.filter fun e => e.write.thread = i := by rw [s]; exact List.mem_cons_self
    exact mem_ofUnit.2 ⟨(List.mem_filter.1 s').1, rfl⟩
  refine ⟨e.write, by rw [h.owned_eq, s]; rfl, rfl, ?_⟩
  show (f.chain e.record.sku)[e.record.version - 1]? = _
  rw [h.chain_eq, List.getElem?_map, (h.linked e.record.sku).getElem?_version he]
  rfl

/-- What a thread knows when it comes to rest on a record, it has read off
the store and the clock. -/
theorem idles {ms : List Mandate} (h : Tracked (mandateOf ms) post f ps es) {i : Nat} {a : α}
    {record : StockRecord} (hr : f.result? i = some a)
    (hi : (mandateOf ms i).Idles record (ps i).stand) : f.Idles ms i record := by
  obtain ⟨t, ht, -⟩ := f.exists_thread hr
  obtain ⟨sku, now, command, -, ho, hs, hx⟩ := hi
  have known := h.known i t ht
  rw [hs] at known
  obtain ⟨⟨hc, rfl, e, he, rfl⟩, hn⟩ := known
  refine ⟨⟨e.write, ?_, rfl⟩, hc, t, now, command, ht, hn, ho, hx⟩
  rw [h.chain_eq]
  exact List.mem_map_of_mem (mem_ofUnit.2 ⟨he, rfl⟩)

end Tracked

/-- However the turns of the jobs fall, the records of each unit are a sequential history. -/
theorem isLinear_run (jobs : List Job) (turns : List Turn) :
    ((Floor.start (jobs.map Job.settle)).run turns).IsLinear (jobs.map Job.mandate) := by
  have start := tracked_map (fun m => Outcome m [] fun _ => []) Job.obeys_settle jobs
  obtain ⟨ps, es, h⟩ := start.exists_run turns
  exact {
    versions := fun sku => by
      rw [h.chain_eq, List.map_map, List.length_map]
      exact (h.linked sku).versions
    stored := fun sku => by
      rw [h.store, h.chain_eq, List.getLast?_map, Option.map_map]
      rfl
    first := fun sku w hw => by
      rw [h.chain_eq, List.getElem?_map] at hw
      obtain ⟨e, he, rfl⟩ := Option.map_eq_some_iff.1 hw
      exact ⟨e.events, (h.linked sku).first he⟩
    next := fun sku n v w hv hw => by
      rw [h.chain_eq, List.getElem?_map] at hv hw
      obtain ⟨d, hd, rfl⟩ := Option.map_eq_some_iff.1 hv
      obtain ⟨e, he, rfl⟩ := Option.map_eq_some_iff.1 hw
      exact ⟨e.events, (h.linked sku).next hd he⟩
    covered := fun w hw => by
      rw [h.writes] at hw
      obtain ⟨e, he, rfl⟩ := List.mem_map.1 hw
      exact h.covered e he
    consistent := fun w hw => by
      rw [h.writes] at hw
      obtain ⟨e, he, rfl⟩ := List.mem_map.1 hw
      exact h.consistent e he
    committed := fun i c hr hc => by
      obtain ⟨hn, -⟩ | ⟨-, hm, -⟩ := h.ended hr
      · exact absurd hn hc
      · exact h.owned_of_made_singleton hm
    idle := fun i c hr hc => by
      obtain ⟨-, hm, hi⟩ | ⟨hn, -⟩ := h.ended hr
      · exact ⟨h.owned_of_made_nil hm, h.idles hr hi⟩
      · exact absurd hc hn
    failed := fun i e hr => h.owned_of_made_nil (h.ended hr).1 }

end Stockroom.Ledger
