import Stockroom.Ledger.Floor
import Stockroom.Proofs.Text.KeyMap

/-! When the store accepts a write, and what it holds afterwards. -/
namespace Stockroom.Store
set_option autoImplicit false

variable {s next : Store} {r stored : StockRecord}

theorem load_put (s : Store) (r : StockRecord) (sku : SkuCode) :
    (s.put r).load sku = if sku = r.sku then some r else s.load sku := by
  by_cases h : sku = r.sku
  · rw [if_pos h, h, load_put_self]
  · rw [if_neg h, load_put_of_ne s r h]

theorem insert_eq_ok_iff :
    s.insert r = .ok (stored, next) ↔ r.isCreated = true ∧ r.version = 0 ∧ r.IsConsistent ∧
      s.load r.sku = none ∧ stored = r.atVersion 1 ∧ next = s.put (r.atVersion 1) := by
  unfold insert StockRecord.IsConsistent
  by_cases h : r.isCreated = false ∨ r.version ≠ 0
  · rw [if_pos h]
    constructor
    · nofun
    · rintro ⟨h1, h2, -⟩
      rcases h with h | h
      · cases h1.symm.trans h
      · exact absurd h2 h
  · rw [if_neg h]
    have h1 : r.isCreated = true := by simpa using fun e => h (Or.inl e)
    have h2 : r.version = 0 := by simpa using fun e => h (Or.inr e)
    cases r.inconsistency? with
    | some cause => simp
    | none =>
      cases s.load r.sku with
      | some current => simp
      | none => simp [h1, h2, eq_comm]

theorem swap_eq_ok_iff {expected : ExpectedVersion} :
    s.swap r expected = .ok (stored, next) ↔
      r.IsConsistent ∧ ∃ current, s.load r.sku = some current ∧
        expected.matches current.version = true ∧ current.id = r.id ∧
        stored = r.atVersion (current.version + 1) ∧
        next = s.put (r.atVersion (current.version + 1)) := by
  unfold swap StockRecord.IsConsistent
  cases r.inconsistency? with
  | some cause => simp
  | none =>
    cases s.load r.sku with
    | none => simp
    | some current =>
      dsimp only
      by_cases h1 : expected.matches current.version = false
      · simp [h1]
      · have h1' : expected.matches current.version = true := by simpa using h1
        rw [if_neg h1]
        by_cases h2 : current.id = r.id
        · rw [if_neg (not_not_intro h2)]
          simp only [Except.ok.injEq, Prod.mk.injEq, Option.some.injEq,
            exists_eq_left', h1', h2, true_and]
          rw [eq_comm, @eq_comm _ (s.put _)]
        · rw [if_pos h2]
          simp [h2]

/-- A swap ends in a conflict just if another version than the expected one is stored. -/
theorem swap_eq_conflict_iff {expected : ExpectedVersion} :
    (∃ sku e actual, s.swap r expected = .error (.conflict sku e actual)) ↔
      r.IsConsistent ∧ ∃ current, s.load r.sku = some current ∧
        expected.matches current.version = false := by
  unfold swap StockRecord.IsConsistent
  cases r.inconsistency? with
  | some cause => simp
  | none =>
    cases s.load r.sku with
    | none => simp
    | some current =>
      by_cases h1 : expected.matches current.version = false
      · simp [h1]
      · by_cases h2 : current.id = r.id <;> simp [h1, h2]

theorem matches_exactly {v w : Nat} : (ExpectedVersion.exactly v).matches w = true ↔ v = w := by
  simp [ExpectedVersion.matches]

/-! ## Locality -/

/-- What comes of an insertion is a matter of its own unit alone. -/
theorem insert_congr {s' : Store} (h : s.load r.sku = s'.load r.sku) :
    (∃ e, s.insert r = .error e ∧ s'.insert r = .error e) ∨ ∃ stored, stored.sku = r.sku ∧
      s.insert r = .ok (stored, s.put stored) ∧ s'.insert r = .ok (stored, s'.put stored) := by
  unfold insert
  rw [h]
  by_cases h1 : r.isCreated = false ∨ r.version ≠ 0
  · rw [if_pos h1, if_pos h1]
    exact Or.inl ⟨_, rfl, rfl⟩
  · rw [if_neg h1, if_neg h1]
    cases r.inconsistency? with
    | some cause => exact Or.inl ⟨_, rfl, rfl⟩
    | none =>
      cases s'.load r.sku with
      | some current => exact Or.inl ⟨_, rfl, rfl⟩
      | none => exact Or.inr ⟨r.atVersion 1, rfl, rfl, rfl⟩

theorem swap_congr {s' : Store} (h : s.load r.sku = s'.load r.sku) (expected : ExpectedVersion) :
    (∃ e, s.swap r expected = .error e ∧ s'.swap r expected = .error e) ∨
      ∃ stored, stored.sku = r.sku ∧ s.swap r expected = .ok (stored, s.put stored) ∧
        s'.swap r expected = .ok (stored, s'.put stored) := by
  unfold swap
  rw [h]
  cases r.inconsistency? with
  | some cause => exact Or.inl ⟨_, rfl, rfl⟩
  | none =>
    cases s'.load r.sku with
    | none => exact Or.inl ⟨_, rfl, rfl⟩
    | some current =>
      dsimp only
      split
      · exact Or.inl ⟨_, rfl, rfl⟩
      · split
        · exact Or.inl ⟨_, rfl, rfl⟩
        · exact Or.inr ⟨r.atVersion (current.version + 1), rfl, rfl, rfl⟩

/-- Stores with the same records are the same. -/
theorem eq_of_load_eq {s' : Store} (h : ∀ sku, s.load sku = s'.load sku) : s = s' := by
  obtain ⟨m⟩ := s
  obtain ⟨n⟩ := s'
  exact congrArg Store.mk (KeyMap.eq_of_get?_eq h)

/-! ## Listings -/

theorem mem_scan_iff (h : ∀ sku r, s.load sku = some r → r.sku = sku) :
    r ∈ s.scan ↔ s.load r.sku = some r := by
  refine KeyMap.mem_values_iff.trans ⟨?_, fun hr => ⟨r.sku, hr⟩⟩
  rintro ⟨sku, hr⟩
  rwa [h sku r hr]

theorem ascending_scan (h : ∀ sku r, s.load sku = some r → r.sku = sku) :
    s.scan.Pairwise fun a b => a.sku.text < b.sku.text := by
  refine List.pairwise_map.2 (s.records.ascending.imp_of_mem fun {a b} ha hb lt => ?_)
  rw [h a.1 a.2 (KeyMap.get?_eq_some_iff.2 ha), h b.1 b.2 (KeyMap.get?_eq_some_iff.2 hb)]
  exact lt

/-! ## Answers -/

variable {chance : (q : Request) → q.Reply}

theorem insert_of_answer (h : s.answer chance (.insert r) = (.ok stored, next)) :
    s.insert r = .ok (stored, next) := by
  cases hi : s.insert r with
  | error e =>
    simp only [answer, hi] at h
    cases h
  | ok p =>
    simp only [answer, hi] at h
    cases h
    rfl

theorem swap_of_answer {expected : ExpectedVersion}
    (h : s.answer chance (.swap r expected) = (.ok stored, next)) :
    s.swap r expected = .ok (stored, next) := by
  cases hi : s.swap r expected with
  | error e =>
    simp only [answer, hi] at h
    cases h
  | ok p =>
    simp only [answer, hi] at h
    cases h
    rfl

/-- A store that refuses to insert is left as it was. -/
theorem eq_of_answer_insert_error {e : StoreError}
    (h : s.answer chance (.insert r) = (.error e, next)) : next = s := by
  cases hi : s.insert r with
  | error d =>
    simp only [answer, hi] at h
    cases h
    rfl
  | ok p =>
    simp only [answer, hi] at h
    cases h

theorem eq_of_answer_swap_error {expected : ExpectedVersion} {e : StoreError}
    (h : s.answer chance (.swap r expected) = (.error e, next)) : next = s := by
  cases hi : s.swap r expected with
  | error d =>
    simp only [answer, hi] at h
    cases h
    rfl
  | ok p =>
    simp only [answer, hi] at h
    cases h

end Stockroom.Store
