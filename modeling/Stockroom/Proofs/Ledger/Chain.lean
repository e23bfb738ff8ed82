import Stockroom.Proofs.Store.Writes

/-! Chains of writes. In a chain each write goes on from the record that the write before has left,
so its versions count up from one, and no version is written twice. -/
namespace Stockroom.Ledger
set_option autoImplicit false

/-- A write and the events it was made for. -/
structure Entry where
  write : Write
  events : List Event

namespace Entry

def record (e : Entry) : StockRecord := e.write.record

def commit (e : Entry) : Commit := ⟨e.record, e.events⟩

end Entry

variable {orders : Nat → Timestamp → Command → Prop}

/-- From the record `before` on, each entry continues the one before it. -/
def Linked (orders : Nat → Timestamp → Command → Prop) : Option StockRecord → List Entry → Prop
  | _, [] => True
  | before, e :: es => e.write.Continues orders before e.events ∧ Linked orders (some e.record) es

def lastRecord (before : Option StockRecord) (es : List Entry) : Option StockRecord :=
  (es.getLast?.map Entry.record).or before

theorem lastRecord_cons (before : Option StockRecord) (e : Entry) (es : List Entry) :
    lastRecord before (e :: es) = lastRecord (some e.record) es := by
  unfold lastRecord
  rw [List.getLast?_cons]
  cases es.getLast? with
  | none => rfl
  | some l => rfl

theorem linked_append_singleton {before : Option StockRecord} {es : List Entry} {e : Entry} :
    Linked orders before (es ++ [e]) ↔
      Linked orders before es ∧ e.write.Continues orders (lastRecord before es) e.events := by
  induction es generalizing before with
  | nil => simp only [List.nil_append, Linked, and_true, true_and, lastRecord,
      List.getLast?_nil, Option.map_none, Option.none_or]
  | cons d es ih => rw [List.cons_append, Linked, ih, Linked, lastRecord_cons, and_assoc]

theorem Linked.first {before : Option StockRecord} {es : List Entry} {e : Entry}
    (h : Linked orders before es) (he : es[0]? = some e) :
    e.write.Continues orders before e.events := by
  cases es with
  | nil => cases he
  | cons d es =>
    cases he
    exact h.1

theorem Linked.next {before : Option StockRecord} {es : List Entry} {n : Nat} {d e : Entry}
    (h : Linked orders before es) (hd : es[n]? = some d) (he : es[n + 1]? = some e) :
    e.write.Continues orders (some d.record) e.events := by
  induction es generalizing before n with
  | nil => cases hd
  | cons c es ih =>
    cases n with
    | zero =>
      cases hd
      exact h.2.first he
    | succ n => exact ih h.2 hd he

theorem Linked.continues {before : Option StockRecord} {es : List Entry} {e : Entry}
    (h : Linked orders before es) (he : e ∈ es) :
    ∃ before, e.write.Continues orders before e.events := by
  induction es generalizing before with
  | nil => cases he
  | cons d es ih =>
    rcases List.mem_cons.1 he with rfl | he
    · exact ⟨before, h.1⟩
    · exact ih h.2 he

theorem Write.Continues.version_eq {before : Option StockRecord} {w : Write} {events : List Event}
    (h : w.Continues orders before events) : w.record.version = versionOf before + 1 := by
  obtain ⟨base, now, command, candidate, -, -, -, -, -, e⟩ := h
  rw [e]
  rfl

theorem Linked.versions {before : Option StockRecord} {es : List Entry}
    (h : Linked orders before es) :
    es.map (fun e => e.record.version) = List.range' (versionOf before + 1) es.length := by
  induction es generalizing before with
  | nil => rfl
  | cons e es ih =>
    have hv : e.record.version = versionOf before + 1 := h.1.version_eq
    have hv' : versionOf (some e.record) = versionOf before + 1 := hv
    rw [List.map_cons, ih h.2, List.length_cons, List.range'_succ, hv, hv']

theorem Linked.exists_version_iff {es : List Entry} (h : Linked orders none es) {n : Nat} :
    (∃ e ∈ es, e.record.version = n) ↔ 1 ≤ n ∧ n ≤ es.length := by
  have s1 : n ∈ es.map (fun e => e.record.version) ↔ n ∈ List.range' 1 es.length := by
    rw [h.versions]; rfl
  rw [List.mem_map, List.mem_range'_1] at s1
  rw [s1]
  omega

theorem Linked.length_eq {es : List Entry} {r : StockRecord} (h : Linked orders none es)
    (hl : lastRecord none es = some r) : es.length = r.version := by
  rw [lastRecord, Option.or_none] at hl
  obtain ⟨e, he, rfl⟩ := Option.map_eq_some_iff.1 hl
  obtain ⟨ds, rfl⟩ := List.getLast?_eq_some_iff.1 he
  have s1 : (ds ++ [e]).map (fun e => e.record.version) = List.range' 1 (ds ++ [e]).length :=
    h.versions
  have s2 := congrArg List.getLast? s1
  rw [List.getLast?_map, he, List.getLast?_range', if_neg (by simp)] at s2
  have s3 : e.record.version = 1 + (ds ++ [e]).length - 1 := Option.some.inj s2
  omega

/-- An entry of a chain stands where its version says. -/
theorem Linked.getElem?_version {es : List Entry} {e : Entry} (h : Linked orders none es)
    (he : e ∈ es) : es[e.record.version - 1]? = some e := by
  obtain ⟨n, hn⟩ := List.mem_iff_getElem?.1 he
  have s1 : (es.map fun e => e.record.version)[n]? = some e.record.version := by
    rw [List.getElem?_map, hn]; rfl
  obtain ⟨hlt, -⟩ := List.getElem?_eq_some_iff.1 hn
  have s2 : (List.range' 1 es.length)[n]? = some (1 + n) := by simp [hlt]
  have s3 : e.record.version = 1 + n := by
    rw [h.versions] at s1
    exact Option.some.inj (s1.symm.trans s2)
  rw [s3, Nat.add_sub_cancel_left]
  exact hn

theorem Linked.ascending {before : Option StockRecord} {es : List Entry}
    (h : Linked orders before es) :
    es.Pairwise fun d e => d.record.version < e.record.version := by
  have s : (es.map fun e => e.record.version).Pairwise (· < ·) := by
    rw [h.versions]
    exact List.pairwise_lt_range'
  exact List.pairwise_map.1 s

/-- The entry of the latest version is the last one. -/
theorem Linked.eq_of_version_eq {before : Option StockRecord} {es : List Entry} {d e : Entry}
    (h : Linked orders before es) (hd : d ∈ es) (he : es.getLast? = some e)
    (hv : d.record.version = e.record.version) : d = e := by
  obtain ⟨fs, rfl⟩ := List.getLast?_eq_some_iff.1 he
  rcases List.mem_append.1 hd with hd | hd
  · have lt := (List.pairwise_append.1 h.ascending).2.2 d hd e List.mem_cons_self
    omega
  · exact List.mem_singleton.1 hd

/-! ## Units -/

def ofUnit (sku : SkuCode) (es : List Entry) : List Entry := es.filter fun e => e.record.sku = sku

theorem ofUnit_append (sku : SkuCode) (es : List Entry) (e : Entry) :
    ofUnit sku (es ++ [e]) = if e.record.sku = sku then
      ofUnit sku es ++ [e] else ofUnit sku es := by
  unfold ofUnit
  rw [List.filter_append]
  by_cases h : e.record.sku = sku <;> simp [h]

theorem mem_ofUnit {sku : SkuCode} {es : List Entry} {e : Entry} :
    e ∈ ofUnit sku es ↔ e ∈ es ∧ e.record.sku = sku := by
  simp [ofUnit]

end Stockroom.Ledger
