import Stockroom.Proofs.Ledger.Expiry

/-! How commits end among rivals. What a program comes to is said of its answer and of the records
that it has written, from any lawful store and whatever the rivals do in between; said so, it holds
of a program if it holds of its parts. A commit that succeeds was decided on a lawful record, at a
reading of the clock, and has written the outcome once or, if nothing was to be done, not at all. -/
namespace Stockroom.Ledger
set_option autoImplicit false

open Program (Leads Logic)

variable {α β ε : Type} {w : Rivalry} {contested : SkuCode → Bool} {sku : SkuCode}
  {command : Timestamp → Except StockError Command}

/-! ## Programs -/

/-- From any lawful store the program ends with an answer and with own writes as `post` says. -/
def Concludes (w : Rivalry) (contested : SkuCode → Bool) (p : Program α)
    (post : α → List StockRecord → Prop) : Prop :=
  ∀ t : Rivaled, t.store.Lawful →
    p.Leads w.answer t fun a t' => ∃ own, post a own ∧ Advances contested own t t'

theorem concludes_pure {a : α} {post : α → List StockRecord → Prop} (h : post a []) :
    Concludes w contested (pure a) post :=
  fun _ hl => ⟨[], h, advances_refl hl⟩

theorem Concludes.bind {p : Program α} {f : α → Program β} {mid : α → List StockRecord → Prop}
    {post : β → List StockRecord → Prop} (hp : Concludes w contested p mid)
    (hf : ∀ a own, mid a own → Concludes w contested (f a) fun b own' => post b (own ++ own')) :
    Concludes w contested (p >>= f) post := by
  intro t hl
  refine (hp t hl).seq ?_
  rintro a t' ⟨own, ha, ht⟩
  obtain ⟨own', hb, ht'⟩ := hf a own ha t' ht.lawful
  exact ⟨own ++ own', hb, ht.trans ht'⟩

/-- An answer that is given after all that was to be written. -/
theorem concludes_last {a : α} {own : List StockRecord} {post : α → List StockRecord → Prop}
    (h : post a own) :
    Concludes w contested (pure a) fun b own' => post b (own ++ own') :=
  concludes_pure ((List.append_nil own).symm ▸ h)

/-- An answer is changed on the way out. -/
theorem Concludes.answer {p : Program α} {mid : α → List StockRecord → Prop}
    {post : β → List StockRecord → Prop} {f : α → β} (hp : Concludes w contested p mid)
    (h : ∀ a own, mid a own → post (f a) own) :
    Concludes w contested (p >>= fun a => pure (f a)) post :=
  hp.bind fun a own ha => concludes_last (h a own ha)

theorem Concludes.mono {p : Program α} {mid post : α → List StockRecord → Prop}
    (hp : Concludes w contested p mid) (h : ∀ a own, mid a own → post a own) :
    Concludes w contested p post :=
  fun t hl => (hp t hl).mono fun a _ ⟨own, ha, ht⟩ => ⟨own, h a own ha, ht⟩

/-- To conclude, counting what had been written before, is a logic of programs. -/
def concluding (w : Rivalry) (contested : SkuCode → Bool) : Logic (List StockRecord) where
  Holds p own post := Concludes w contested p fun a own' => post a (own ++ own')
  pure h := concludes_last h
  bind hp hf := hp.bind fun a _ ha => by simpa only [List.append_assoc] using hf a _ ha

/-- What writes nothing leaves what has been written. -/
theorem Idle.concludes {p : Program α} (hp : Idle p) (hw : w.Spares contested)
    {own : List StockRecord} {post : α → List StockRecord → Prop} (h : ∀ a, post a own) :
    (concluding w contested).Holds p own post := by
  intro t hl
  refine (hp.leads hw hl).mono fun a t' ht => ⟨[], ?_, ht⟩
  show post a (own ++ [])
  rw [List.append_nil]
  exact h a

theorem passes_concluding (hw : w.Spares contested) (stand : List StockRecord → Prop) :
    Passes (concluding w contested) stand := by
  intro own q hs hq
  exact (idle_request fun reply => hq.written? reply).concludes hw fun _ => hs

/-! ## Questions -/

theorem concludes_load (hw : w.Spares contested) (sku : SkuCode) :
    Concludes w contested (Program.load sku) fun reply own =>
    (∃ found : Option StockRecord, reply = .ok found ∧ ∀ r ∈ found, r.Lawful sku) ∧ own = [] := by
  intro t hl
  have law := (hw.follows_meddled hl (.load sku)).lawful
  exact ⟨[], ⟨⟨_, rfl, law sku⟩, rfl⟩, hw.advances_answer hl rfl⟩

theorem concludes_clock (hw : w.Spares contested) :
    Concludes w contested Program.clock fun now own => w.toWorld.Reads now ∧ own = [] :=
  fun t hl => ⟨[], ⟨⟨t.asked, rfl⟩, rfl⟩, hw.advances_answer hl rfl⟩

theorem concludes_swap (hw : w.Spares contested) {candidate : StockRecord}
    (hc : candidate.Lawful candidate.sku) (version : Nat) :
    Concludes w contested (Program.swap candidate (.exactly version)) fun reply own =>
      (∃ e, reply = .error e ∧ own = []) ∨
        reply = .ok (candidate.atVersion (version + 1)) ∧
          own = [candidate.atVersion (version + 1)] := by
  intro t hl
  cases hs : (w.meddled (.swap candidate (.exactly version)) t).swap candidate
    (.exactly version) with
  | error e =>
    have replied := Rivalry.answer_swap_error hs
    refine ⟨[], .inl ⟨e, replied, rfl⟩, hw.advances_answer hl ?_⟩
    rw [replied]
    rfl
  | ok p =>
    obtain ⟨stored, next⟩ := p
    obtain ⟨replied, put⟩ := Rivalry.answer_swap hs
    obtain ⟨-, current, -, matched, -, rfl, rfl⟩ := Store.swap_eq_ok_iff.1 hs
    have same : version = current.version := Store.matches_exactly.1 matched
    rw [← same] at replied put
    refine ⟨_, .inr ⟨replied, rfl⟩,
      hw.advances_put hl ⟨rfl, hc.isCreated, hc.wellFormed.atVersion _⟩ put ?_⟩
    rw [replied]
    rfl

/-! ## Commits -/

/-- Why a commit may fail: the store fails or does not know the unit, attempts have run out, there
is no command to be given at a reading of the clock, or a record refuses it. -/
inductive Fails (w : World)
    (command : Timestamp → Except StockError Command) : LedgerError → Prop where
  | store (e : StoreError) : Fails w command (.ofStore e)
  | contended (sku : SkuCode) (attempts : Nat) : Fails w command (.concurrencyConflict sku attempts)
  | undecided (now : Timestamp) (e : StockError) (hn : w.Reads now) (hc : command now = .error e) :
    Fails w command (.stock e)
  | refused (now : Timestamp) (c : Command) (r : StockRecord) (e : StockError) (hn : w.Reads now)
    (hc : command now = .ok c) (he : r.execute c = .error e) : Fails w command (.stock e)

/-- How a commit to a unit ends, and with which own writes: it fails, or there was nothing to be
done for its command, or it has stored what the command makes of a lawful record. -/
inductive Settles (w : World) (sku : SkuCode) (command : Timestamp → Except StockError Command)
    (IsFailure : ε → Prop) :
    Except ε Commit → List StockRecord → Prop where
  | failed (e : ε) (he : IsFailure e) : Settles w sku command IsFailure (.error e) []
  | idle (now : Timestamp) (c : Command) (base next : StockRecord) (hn : w.Reads now)
    (hc : command now = .ok c) (hb : base.Lawful sku) (he : base.execute c = .ok (next, [])) :
    Settles w sku command IsFailure (.ok ⟨base, []⟩) []
  | stored (now : Timestamp) (c : Command) (base next : StockRecord) (events : List Event)
    (version : Nat) (hn : w.Reads now) (hc : command now = .ok c) (hb : base.Lawful sku)
    (he : base.execute c = .ok (next, events)) :
    Settles w sku command IsFailure (.ok ⟨next.atVersion version, events⟩) [next.atVersion version]

theorem Settles.of_ok {δ : Type} {IsFailure : ε → Prop} {c : Commit} {own : List StockRecord}
    (h : Settles w.toWorld sku command IsFailure (.ok c) own) (IsFailure' : δ → Prop) :
    Settles w.toWorld sku command IsFailure' (.ok c) own := by
  cases h with
  | idle now c base next hn hc hb he => exact .idle now c base next hn hc hb he
  | stored now c base next events version hn hc hb he =>
    exact .stored now c base next events version hn hc hb he

def attempts_concluding (hw : w.Spares contested) (sku : SkuCode)
    (command : Timestamp → Except StockError Command) :
    Attempts (concluding w contested) sku command (fun own => own = [])
      (Settles w.toWorld sku command (Fails w.toWorld command)) where
  loaded current own := own = [] ∧ current.Lawful sku
  timed current now own := own = [] ∧ current.Lawful sku ∧ w.toWorld.Reads now
  load own hs := by
    subst hs
    refine (concludes_load hw sku).mono ?_
    rintro reply own ⟨⟨found, rfl, law⟩, rfl⟩
    cases found with
    | none => exact .failed _ (.store (.notFound sku))
    | some current => exact ⟨rfl, law current rfl⟩
  clock own current hs := by
    obtain ⟨rfl, hb⟩ := hs
    refine (concludes_clock hw).mono ?_
    rintro now own ⟨hn, rfl⟩
    exact ⟨rfl, hb, hn⟩
  undecided own current now e hs hc := by
    obtain ⟨rfl, -, hn⟩ := hs
    exact .failed _ (.undecided now e hn hc)
  refused own current now c e hs hc he := by
    obtain ⟨rfl, -, hn⟩ := hs
    exact .failed _ (.refused now c current e hn hc he)
  idle own current now c next hs hc he := by
    obtain ⟨rfl, hb, hn⟩ := hs
    exact .idle now c current next hn hc hb he
  swap own current now c candidate events hs hc he _ := by
    obtain ⟨rfl, hb, hn⟩ := hs
    have lawful : candidate.Lawful candidate.sku :=
      (hb.wellFormed.lawful_execute he candidate.version).self
    refine (concludes_swap hw lawful current.version).mono ?_
    rintro reply own (⟨e, rfl, rfl⟩ | ⟨rfl, rfl⟩)
    · exact .failed _ (.store e)
    · exact .stored now c current candidate events _ hn hc hb he
  passes _ := passes_concluding hw _

theorem retries_concluding (hw : w.Spares contested) (policy : RetryPolicy) (sku : SkuCode)
    (command : Timestamp → Except StockError Command) :
    Retries (concluding w contested) policy (attempt sku command)
      LedgerError.isRetryable policy.attempts
      (fun _ own => own = []) (fun _ => Settles w.toWorld sku command (Fails w.toWorld command))
      (Settles w.toWorld sku command fun f => Fails w.toWorld command f.cause) where
  attempt n _ := (attempts_concluding hw sku command).holds n
  passes _ _ := passes_concluding hw _
  succeeded _ _ _ hs := hs.of_ok _
  failed _ _ _ hs _ := by
    cases hs with
    | failed _ he => exact .failed _ he
  spent _ _ _ hs _ _ := by
    cases hs with
    | failed _ he => exact .failed _ he
  again _ _ _ hs _ _ := by
    cases hs
    rfl

theorem concludes_commit (hw : w.Spares contested) (config : LedgerConfig) (sku : SkuCode)
    (command : Timestamp → Except StockError Command) :
    Concludes w contested (commit config sku command)
      (Settles w.toWorld sku command (Fails w.toWorld command)) := by
  have closes : Closes (concluding w contested) sku
      (Settles w.toWorld sku command fun f => Fails w.toWorld command f.cause)
      (Settles w.toWorld sku command (Fails w.toWorld command)) :=
    { told := fun own c hs => (idle_publishAll c.record c.events).concludes hw fun _ => hs.of_ok _
      failed := fun _ _ hs => by
        cases hs with
        | failed _ he => exact .failed _ he
      spent := fun _ attempts _ hs => by
        cases hs
        exact .failed _ (.contended sku attempts)
      passes := fun _ => passes_concluding hw _ }
  exact closes.holds ((retries_concluding hw config.retry sku command).run (s := []) rfl)

end Stockroom.Ledger
