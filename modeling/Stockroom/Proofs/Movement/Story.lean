import Stockroom.Proofs.Movement.History

/-! The story of one reservation, as the events that name it tell it. It is placed once, given back
bit by bit, and at most once closed at a stroke, by being consumed or by expiring; once it holds
nothing more, nothing more is told of it. Read off the events alone, the story says how the
reservation is entered in the record. -/
namespace Stockroom
set_option autoImplicit false

/-! ## Stories -/

/-- The ways in which a hold is closed at a stroke. -/
inductive Closing where
  | consumed (quantity held : Int)
  | expired (quantity : Int)

def Closing.change (id : ReservationId) : Closing → Change
  | .consumed q held => .consumed id q held
  | .expired q => .expired id q

/-- A closing that accounts for the units held until then. -/
def Closing.Settles (held : Int) : Closing → Prop
  | .consumed q h => h = held ∧ 0 < q ∧ q ≤ h
  | .expired q => q = held ∧ 0 < q

structure Story where
  placed : Int
  notes : Option String
  expiresAt : Option Timestamp
  /-- The units given back, each time with the reason that was stated. -/
  returns : List (Int × Option String)
  closing : Option Closing

namespace Story

def returned (s : Story) : Int := total (s.returns.map Prod.fst)

/-- The units neither given back nor yet closed. -/
def rest (s : Story) : Int := s.placed - s.returned

def IsOver (s : Story) : Prop := s.closing.isSome = true ∨ s.returned = s.placed

/-- The changes that tell the story. -/
def changes (id : ReservationId) (s : Story) : List Change :=
  .reserved id s.placed s.notes s.expiresAt ::
    ((s.returns.map fun x => .released id x.1 x.2) ++ s.closing.toList.map (Closing.change id))

structure IsSound (s : Story) : Prop where
  placed : 0 < s.placed
  returns : ∀ x ∈ s.returns, 0 < x.1
  returned : s.returned ≤ s.placed
  closing : ∀ c ∈ s.closing, c.Settles s.rest

/-- The entry of a reservation at the end of its story. -/
def Shows (s : Story) (x : Reservation) : Prop :=
  match s.closing with
  | some (.consumed q _) => x.state = .consumed ∧ x.consumedQuantity = q
  | some (.expired _) => x.state = .released ∧ x.releaseReason = some .expired
  | none =>
    if s.returned = s.placed then
      x.state = .released ∧
        ∃ why, s.returns.getLast?.map Prod.snd = some why ∧ x.releaseReason = some (.cancelled why)
    else x.state = .held ∧ x.quantity = s.rest

/-! ## Going on with a story -/

def begin (q : Int) (notes : Option String) (expiresAt : Option Timestamp) : Story :=
  ⟨q, notes, expiresAt, [], none⟩

def giveBack (s : Story) (q : Int) (reason : Option String) : Story :=
  { s with returns := s.returns ++ [(q, reason)] }

def close (s : Story) (c : Closing) : Story := { s with closing := some c }

variable {s : Story} {x : Reservation}

theorem returned_giveBack (s : Story) (q : Int) (reason : Option String) :
    (s.giveBack q reason).returned = s.returned + q := by
  simp [returned, giveBack, total_append]

theorem rest_giveBack (s : Story) (q : Int) (reason : Option String) :
    (s.giveBack q reason).rest = s.rest - q := by
  have h : (s.giveBack q reason).placed = s.placed := rfl
  rw [rest, rest, returned_giveBack, h]
  omega

theorem changes_giveBack (h : s.closing = none) (id : ReservationId) (q : Int)
    (reason : Option String) :
    (s.giveBack q reason).changes id = s.changes id ++ [.released id q reason] := by
  simp [changes, giveBack, h]

theorem changes_close (h : s.closing = none) (id : ReservationId) (c : Closing) :
    (s.close c).changes id = s.changes id ++ [c.change id] := by
  simp [changes, close, h]

theorem isSound_begin {q : Int} (h : 0 < q) (notes : Option String) (expiresAt : Option Timestamp) :
    (begin q notes expiresAt).IsSound where
  placed := h
  returns := by simp [begin]
  returned := Int.le_of_lt h
  closing := by simp [begin]

theorem IsSound.giveBack {q : Int} (h : s.IsSound) (hc : s.closing = none) (h0 : 0 < q)
    (hq : q ≤ s.rest) (reason : Option String) : (s.giveBack q reason).IsSound where
  placed := h.placed
  returns y hy := by
    rcases List.mem_append.1 hy with hy | hy
    · exact h.returns y hy
    · cases List.mem_singleton.1 hy
      exact h0
  returned := by
    rw [returned_giveBack]
    show s.returned + q ≤ s.placed
    unfold rest at hq
    omega
  closing c hm := by
    have hn : (s.giveBack q reason).closing = none := hc
    rw [hn] at hm
    cases hm

theorem IsSound.close {c : Closing} (h : s.IsSound) (hc : c.Settles s.rest) :
    (s.close c).IsSound where
  placed := h.placed
  returns := h.returns
  returned := h.returned
  closing d hd := by
    cases Option.some.inj hd
    exact hc

/-- Only of a story that goes on can the reservation be held, and then it holds the rest. -/
theorem Shows.of_isHeld (h : s.Shows x) (hx : x.isHeld = true) :
    s.closing = none ∧ x.quantity = s.rest ∧ ¬s.IsOver := by
  have hs : x.state = .held := (Reservation.isHeld_iff x).1 hx
  unfold Shows at h
  cases hc : s.closing with
  | some c =>
    cases c with
    | consumed q held =>
      rw [hc] at h
      cases hs.symm.trans h.1
    | expired q =>
      rw [hc] at h
      cases hs.symm.trans h.1
  | none =>
    rw [hc] at h
    dsimp only at h
    by_cases hr : s.returned = s.placed
    · rw [if_pos hr] at h
      cases hs.symm.trans h.1
    · rw [if_neg hr] at h
      refine ⟨rfl, h.2, ?_⟩
      simp [IsOver, hc, hr]

theorem Shows.isHeld_eq_false (h : s.Shows x) (ho : s.IsOver) : x.isHeld = false := by
  cases hx : x.isHeld with
  | false => rfl
  | true => exact absurd ho (h.of_isHeld hx).2.2

theorem shows_begin {q : Int} (h : 0 < q) (id : ReservationId) (notes : Option String)
    (expiresAt : Option Timestamp) (t : Timestamp) :
    (begin q notes expiresAt).Shows (.place id q notes t expiresAt) := by
  have hr : (begin q notes expiresAt).returned ≠ (begin q notes expiresAt).placed := by
    show (0 : Int) ≠ q
    omega
  have hq : (begin q notes expiresAt).rest = q := Int.sub_zero q
  simp only [Shows, if_neg hr, hq]
  exact ⟨rfl, rfl⟩

theorem Shows.giveBack {q : Int} (h : s.Shows x) (hx : x.isHeld = true) (reason : Option String)
    (t : Timestamp) :
    (s.giveBack q reason).Shows (x.giveBack q reason t) := by
  obtain ⟨hc, hq, -⟩ := h.of_isHeld hx
  have hc' : (s.giveBack q reason).closing = none := hc
  have hr := rest_giveBack s q reason
  have hp : (s.giveBack q reason).rest = s.placed - (s.giveBack q reason).returned := rfl
  have hs : (s.giveBack q reason).placed = s.placed := rfl
  unfold Shows
  rw [hc']
  by_cases e : q = x.quantity
  · rw [Reservation.giveBack_of_eq e]
    have ended : (s.giveBack q reason).returned = (s.giveBack q reason).placed := by omega
    simp only [if_pos ended, true_and]
    exact ⟨reason, by simp [Story.giveBack], rfl⟩
  · rw [Reservation.giveBack_of_ne e]
    have more : (s.giveBack q reason).returned ≠ (s.giveBack q reason).placed := by omega
    simp only [if_neg more]
    refine ⟨(Reservation.isHeld_iff x).1 hx, ?_⟩
    show x.quantity - q = _
    omega

end Story

/-! ## What is told of a reservation -/

/-- The changes that name a reservation, oldest first. -/
def naming (id : ReservationId) (es : List Event) : List Change :=
  (es.map Event.change).filter fun c => c.reservation? = some id

theorem naming_append (id : ReservationId) (es fs : List Event) :
    naming id (es ++ fs) = naming id es ++ naming id fs := by
  simp [naming]

theorem naming_singleton (id : ReservationId) (e : Event) :
    naming id [e] = if e.change.reservation? = some id then [e.change] else [] := by
  by_cases h : e.change.reservation? = some id <;> simp [naming, h]

/-- The events so far tell a sound story of the reservation, if any, and the record shows what they
tell. Once the story is over, no later event names the reservation. -/
inductive Told (id : ReservationId) (past later : List Event) (r : StockRecord) : Prop where
  | nothing (hn : naming id past = []) (hr : r.reservation? id = none)
  | story (s : Story) (x : Reservation) (hs : s.IsSound) (hn : naming id past = s.changes id)
    (hr : r.reservation? id = some x) (hx : s.Shows x) (ended : s.IsOver → naming id later = [])

namespace StockRecord

variable {r : StockRecord} {id : ReservationId} {past es : List Event} {e : Event}

theorem reservation?_apply_of_ne (h : e.change.reservation? ≠ some id) :
    (r.apply e).reservation? id = r.reservation? id := by
  obtain ⟨c, t⟩ := e
  cases c with
  | created k sku details => rfl
  | reserved k q notes expiresAt =>
    have ne : id ≠ k := fun e => h (congrArg some e.symm)
    exact (reservation?_insert r.reservations k id _).trans (if_neg ne)
  | released k q reason =>
    have ne : id ≠ k := fun e => h (congrArg some e.symm)
    exact (reservation?_modify r.reservations k id _).trans (if_neg ne)
  | consumed k q held =>
    have ne : id ≠ k := fun e => h (congrArg some e.symm)
    exact (reservation?_modify r.reservations k id _).trans (if_neg ne)
  | expired k q =>
    have ne : id ≠ k := fun e => h (congrArg some e.symm)
    exact (reservation?_modify r.reservations k id _).trans (if_neg ne)
  | adjusted delta reason reference =>
    show (r.adjust delta t).reservations.get? id = r.reservations.get? id
    rw [adjust_eq]
  | deactivated reason => rfl

/-- A change under the key of an entry changes that entry. -/
theorem reservation?_modify_self {x : Reservation} (h : r.reservation? id = some x)
    (f : Reservation → Reservation) :
    (r.reservations.modify id f).get? id = some (f x) := by
  have h' : r.reservations.get? id = some x := h
  rw [reservation?_modify, if_pos rfl, h', Option.map_some]

/-- A fitting change that names a reservation finds it held, or not there at all. -/
theorem isHeld_of_fits {c : Change} {x : Reservation} (hc : c.reservation? = some id)
    (hf : c.Fits r) (hr : r.reservation? id = some x) : x.isHeld = true := by
  cases c with
  | reserved k q notes expiresAt =>
    cases hc
    cases hr.symm.trans hf.2.2.2
  | released k q reason =>
    cases hc
    obtain ⟨-, y, hy, hh, -⟩ := hf
    cases hy.symm.trans hr
    exact hh
  | consumed k q held =>
    cases hc
    obtain ⟨-, y, hy, hh, -⟩ := hf
    cases hy.symm.trans hr
    exact hh
  | expired k q =>
    cases hc
    obtain ⟨-, y, hy, hh, -⟩ := hf
    cases hy.symm.trans hr
    exact hh
  | _ => cases hc

/-- A reservation that holds nothing any more is not named again. -/
theorem naming_eq_nil {x : Reservation} (hr : r.reservation? id = some x) (hx : x.isHeld = false)
    (hf : r.FitsAll es) : naming id es = [] := by
  induction es generalizing r with
  | nil => rfl
  | cons e es ih =>
    have ne : e.change.reservation? ≠ some id := by
      intro he
      cases hx.symm.trans (isHeld_of_fits he hf.1 hr)
    have s1 : naming id es = [] := ih ((reservation?_apply_of_ne ne).trans hr) hf.2
    rw [← List.singleton_append, naming_append, naming_singleton, if_neg ne, s1]
    rfl

end StockRecord

namespace Told

open StockRecord

variable {r : StockRecord} {id : ReservationId} {past es : List Event} {e : Event}

theorem of_ne (h : Told id past [] r) (hne : e.change.reservation? ≠ some id) :
    Told id (past ++ [e]) [] (r.apply e) := by
  have hn : naming id (past ++ [e]) = naming id past := by
    rw [naming_append, naming_singleton, if_neg hne, List.append_nil]
  have hr := reservation?_apply_of_ne (r := r) hne
  cases h with
  | nothing h1 h2 => exact .nothing (hn.trans h1) (hr.trans h2)
  | story s x hs h1 h2 hx ended => exact .story s x hs (hn.trans h1) (hr.trans h2) hx ended

/-- The story of a held reservation goes on, with what is held still to be told of. -/
theorem of_isHeld {x : Reservation} (h : Told id past [] r) (hr : r.reservation? id = some x)
    (hx : x.isHeld = true) :
    ∃ s : Story, s.IsSound ∧ naming id past = s.changes id ∧ s.Shows x ∧ s.closing = none ∧
      x.quantity = s.rest := by
  cases h with
  | nothing h1 h2 => cases h2.symm.trans hr
  | story s y hs h1 h2 hy ended =>
    cases h2.symm.trans hr
    obtain ⟨h3, h4, -⟩ := hy.of_isHeld hx
    exact ⟨s, hs, h1, hy, h3, h4⟩

/-- A fitting event that names the reservation goes on with its story. -/
theorem of_eq (h : Told id past [] r) (hw : r.Sound) (he : e.change.reservation? = some id)
    (hf : e.change.Fits r) :
    Told id (past ++ [e]) [] (r.apply e) := by
  have hn : naming id (past ++ [e]) = naming id past ++ [e.change] := by
    rw [naming_append, naming_singleton, if_pos he]
  obtain ⟨c, t⟩ := e
  cases c with
  | reserved k q notes expiresAt =>
    cases he
    obtain ⟨-, h0, -, hr⟩ := hf
    have s1 : naming id past = [] := by
      cases h with
      | nothing h1 h2 => exact h1
      | story s x hs h1 h2 hx ended => cases h2.symm.trans hr
    refine .story (.begin q notes expiresAt) (.place id q notes t expiresAt)
      (Story.isSound_begin h0 _ _) ?_ ?_ (Story.shows_begin h0 id notes expiresAt t) fun _ => rfl
    · rw [hn, s1]
      rfl
    · exact (reservation?_insert r.reservations id id _).trans (if_pos rfl)
  | released k q reason =>
    cases he
    obtain ⟨-, x, hr, hx, h0, hq⟩ := hf
    obtain ⟨s, hs, h1, h2, hc, hh⟩ := h.of_isHeld hr hx
    refine .story (s.giveBack q reason) (x.giveBack q reason t)
      (hs.giveBack hc h0 (hh ▸ hq) reason) ?_ ?_ (h2.giveBack hx reason t) fun _ => rfl
    · rw [hn, h1, Story.changes_giveBack hc]
    · exact reservation?_modify_self hr _
  | consumed k q held =>
    cases he
    obtain ⟨-, x, hr, hx, h0, hq, hl⟩ := hf
    obtain ⟨s, hs, h1, h2, hc, hh⟩ := h.of_isHeld hr hx
    refine .story (s.close (.consumed q held)) (x.consume q t)
      (hs.close ⟨hl.trans hh, h0, hq⟩) ?_ ?_ ⟨rfl, rfl⟩
      fun _ => rfl
    · rw [hn, h1, Story.changes_close hc]
      rfl
    · exact reservation?_modify_self hr _
  | expired k q =>
    cases he
    obtain ⟨-, x, hr, hx, hl⟩ := hf
    obtain ⟨s, hs, h1, h2, hc, hh⟩ := h.of_isHeld hr hx
    have h0 : 0 < x.quantity := hw.quantity_pos hr hx
    refine .story (s.close (.expired q)) (x.expire t)
      (hs.close ⟨hl.trans hh, by omega⟩) ?_ ?_ ⟨rfl, rfl⟩
      fun _ => rfl
    · rw [hn, h1, Story.changes_close hc]
      rfl
    · exact reservation?_modify_self hr _
  | _ => cases he

theorem apply (h : Told id past [] r) (hw : r.Sound) (hf : e.change.Fits r) :
    Told id (past ++ [e]) [] (r.apply e) := by
  by_cases he : e.change.reservation? = some id
  · exact h.of_eq hw he hf
  · exact h.of_ne he

theorem followedBy (h : Told id past [] r) (hf : r.FitsAll es) : Told id past es r := by
  cases h with
  | nothing h1 h2 => exact .nothing h1 h2
  | story s x hs h1 h2 hx ended =>
    exact .story s x hs h1 h2 hx fun ho => naming_eq_nil h2 (hx.isHeld_eq_false ho) hf

end Told

/-- Whatever commands are given, at every point of the stream of their events each reservation has a
sound story, and the record that the events up to there have led to shows it. -/
theorem StockRecord.told_history (recordId : RecordId) (sku : SkuCode) (cs : List Command)
    (id : ReservationId) (n : Nat) :
    let start := empty recordId sku
    let es := start.history cs
    start.run cs = start.applyAll es ∧
      Told id (es.take n) (es.drop n) (start.applyAll (es.take n)) := by
  intro start es
  have hw : start.WellFormed := wellFormed_empty recordId sku
  have hf : start.FitsAll (es.take n ++ es.drop n) := by
    rw [List.take_append_drop]
    exact hw.fitsAll_history cs
  obtain ⟨h1, h2⟩ := (fitsAll_append start _ _).1 hf
  have h0 : Told id [] [] start := .nothing rfl rfl
  have s1 : Told id ([] ++ es.take n) [] (start.applyAll (es.take n)) :=
    hw.applyAll_induction (motive := fun past r => Told id past [] r)
      (fun past r e hr hf ht => ht.apply hr.sound hf) h1 h0
  exact ⟨run_eq_applyAll start cs, s1.followedBy h2⟩

end Stockroom
