import Mathlib.Algebra.GroupWithZero.Nat
import Mathlib.Data.Set.List
import Stockroom.Identifier.Uuid

/-! The text forms of an identifier. Its 32 digits may stand by themselves, in hyphenated groups,
and these in braces or behind `urn:uuid:`, each letter in either case. These forms are all that
is read, and what is read is the identifier with these digits; so it is in particular read back
from its written form. -/
namespace Stockroom.Uuid
set_option autoImplicit false

/-! ## Digits -/

variable {c : Char} {d : Fin 16} {cs es : List Char} {ds : List (Fin 16)} {u : Uuid}

theorem hexDigit?_ofNat_eq_some_iff : ∀ n < 128, ∀ d : Fin 16,
    hexDigit? (Char.ofNat n) = some d ↔ (Char.ofNat n).toLower = hexChar d := by decide +kernel

theorem hexDigit?_of_not_ascii (h : 128 ≤ c.toNat) : hexDigit? c = none := by
  have beyond (a : Char) (ha : a.toNat < 128) : ¬c ≤ a := fun le => by
    have s1 : c.toNat ≤ a.toNat := le
    omega
  rw [hexDigit?, if_neg fun both => beyond '9' (by decide) both.2,
    if_neg fun both => beyond 'f' (by decide) both.2,
    if_neg fun both => beyond 'F' (by decide) both.2]

theorem toLower_of_not_ascii (h : 128 ≤ c.toNat) : c.toLower = c := by
  refine dif_neg fun both => ?_
  have s1 : c.toNat ≤ 'Z'.toNat := both.2
  have s2 : 'Z'.toNat < 128 := by decide
  omega

theorem hexChar_lt (d : Fin 16) : (hexChar d).toNat < 128 := by
  revert d
  decide

/-- A character is read as a digit just if it is that digit's, but for its case. -/
theorem hexDigit?_eq_some_iff : hexDigit? c = some d ↔ c.toLower = hexChar d := by
  rcases Nat.lt_or_ge c.toNat 128 with ascii | beyond
  · have s1 := hexDigit?_ofNat_eq_some_iff c.toNat ascii d
    rwa [Char.ofNat_toNat] at s1
  · rw [hexDigit?_of_not_ascii beyond, toLower_of_not_ascii beyond]
    refine iff_of_false nofun fun same => ?_
    have s1 := hexChar_lt d
    rw [← same] at s1
    omega

theorem mapM_hexDigit?_eq_some_iff :
    cs.mapM hexDigit? = some ds ↔ cs.map Char.toLower = ds.map hexChar := by
  induction cs generalizing ds with
  | nil => cases ds <;> simp
  | cons c cs ih =>
    rw [List.mapM_cons, Option.bind_eq_bind, Option.bind_eq_some_iff]
    constructor
    · rintro ⟨d, hd, h⟩
      obtain ⟨ds, hds, h⟩ := Option.bind_eq_some_iff.1 h
      cases h
      rw [List.map_cons, List.map_cons, hexDigit?_eq_some_iff.1 hd, ih.1 hds]
    · intro h
      cases ds with
      | nil => cases h
      | cons d ds =>
        obtain ⟨hd, hds⟩ := List.cons.inj h
        refine ⟨d, hexDigit?_eq_some_iff.2 hd, ?_⟩
        rw [ih.2 hds]
        rfl

/-- Thirty-two hexadecimal digits, each letter in either case. -/
def IsDigits (cs : List Char) : Prop := cs.length = 32 ∧ ∀ c ∈ cs, c.toLower ∈ hexDigits

/-- The digits of an identifier, each letter in either case. -/
def IsCased (u : Uuid) (cs : List Char) : Prop := cs.map Char.toLower = u.digits.map hexChar

theorem IsCased.length (h : u.IsCased cs) : cs.length = 32 := by
  have s1 := congrArg List.length h
  rw [List.length_map, List.length_map, u.length_digits] at s1
  exact s1

theorem IsCased.isSome (h : u.IsCased cs) (hc : c ∈ cs) : ∃ d, hexDigit? c = some d := by
  have s1 : c.toLower ∈ u.digits.map hexChar := h ▸ List.mem_map_of_mem hc
  obtain ⟨d, -, hd⟩ := List.mem_map.1 s1
  exact ⟨d, hexDigit?_eq_some_iff.2 hd.symm⟩

theorem hexChar_mem (d : Fin 16) : hexChar d ∈ hexDigits := List.get_mem _ _

theorem exists_hexChar_eq (h : c ∈ hexDigits) : ∃ d, hexChar d = c := by
  obtain ⟨i, hi⟩ := List.get_of_mem h
  exact ⟨i, hi⟩

theorem exists_map_hexChar_eq (h : ∀ c ∈ cs, c ∈ hexDigits) :
    ∃ ds : List (Fin 16), ds.map hexChar = cs := by
  rw [← Set.mem_range, Set.range_list_map]
  exact fun c hc => exists_hexChar_eq (h c hc)

theorem isDigits_iff : IsDigits cs ↔ ∃ u : Uuid, u.IsCased cs := by
  constructor
  · rintro ⟨length, digits⟩
    obtain ⟨ds, hds⟩ : ∃ ds : List (Fin 16), ds.map hexChar = cs.map Char.toLower :=
      exists_map_hexChar_eq fun c hc => by
      obtain ⟨a, ha, rfl⟩ := List.mem_map.1 hc
      exact digits a ha
    have s1 := congrArg List.length hds
    rw [List.length_map, List.length_map, length] at s1
    exact ⟨⟨ds, s1⟩, hds.symm⟩
  · rintro ⟨u, hu⟩
    refine ⟨hu.length, fun c hc => ?_⟩
    obtain ⟨d, hd⟩ := hu.isSome hc
    rw [hexDigit?_eq_some_iff.1 hd]
    exact hexChar_mem d

theorem hexChar_injective {d e : Fin 16} (h : hexChar d = hexChar e) : d = e := by
  have s1 := hexDigit?_hexChar d
  rw [h, hexDigit?_hexChar] at s1
  exact (Option.some.inj s1).symm

theorem IsCased.unique {v : Uuid} (hu : u.IsCased cs) (hv : v.IsCased es) :
    u = v ↔ cs.map Char.toLower = es.map Char.toLower := by
  constructor
  · rintro rfl
    exact Eq.trans hu (Eq.symm hv)
  · intro same
    have s1 : u.digits.map hexChar = v.digits.map hexChar := by rw [← hu, ← hv, same]
    have s2 : u.digits = v.digits := (List.map_inj_right fun _ _ => hexChar_injective).1 s1
    cases u
    cases v
    cases s2
    rfl

theorem ofDigits?_eq_some_iff : ofDigits? ds = some u ↔ ds = u.digits := by
  unfold ofDigits?
  constructor
  · intro h
    split at h
    · cases h
      rfl
    · cases h
  · rintro rfl
    exact dif_pos u.length_digits

theorem simple?_eq_some_iff : simple? cs = some u ↔ u.IsCased cs := by
  rw [simple?, Option.bind_eq_bind, Option.bind_eq_some_iff]
  simp only [ofDigits?_eq_some_iff, exists_eq_right, mapM_hexDigit?_eq_some_iff]
  rfl

/-! ## Groups -/

/-- Characters in groups of the given sizes, with a hyphen between two groups. -/
def hyphenate : List Nat → List Char → List Char
  | [], _ => []
  | [k], cs => cs.take k
  | k :: ks, cs => cs.take k ++ '-' :: hyphenate ks (cs.drop k)

theorem writeGroups_eq (ks : List Nat) (ds : List (Fin 16)) :
    writeGroups ks ds = hyphenate ks (ds.map hexChar) := by
  induction ks generalizing ds with
  | nil => rfl
  | cons k ks ih =>
    cases ks with
    | nil => exact List.map_take
    | cons l ks =>
      rw [writeGroups, hyphenate, ih, List.map_take, List.map_drop] <;> exact List.cons_ne_nil _ _

theorem hyphenate_append {k l : Nat} {ks : List Nat} {as : List Char} (h : as.length = k)
    (es : List Char) :
    hyphenate (k :: l :: ks) (as ++ es) = as ++ '-' :: hyphenate (l :: ks) es := by
  rw [hyphenate, List.take_left' h, List.drop_left' h]
  exact List.cons_ne_nil l ks

theorem mapM_append_eq_some_iff {as : List Char} : (as ++ es).mapM hexDigit? = some ds ↔
    ∃ a b, as.mapM hexDigit? = some a ∧ es.mapM hexDigit? = some b ∧ ds = a ++ b := by
  rw [List.mapM_append, Option.bind_eq_bind, Option.bind_eq_some_iff]
  constructor
  · rintro ⟨a, ha, h⟩
    obtain ⟨b, hb, h⟩ := Option.bind_eq_some_iff.1 h
    exact ⟨a, b, ha, hb, (Option.some.inj h).symm⟩
  · rintro ⟨a, b, ha, hb, rfl⟩
    exact ⟨a, ha, Option.bind_eq_some_iff.2 ⟨b, hb, rfl⟩⟩

theorem readGroups_cons_eq_some_iff {k l : Nat} {ks : List Nat} :
    readGroups (k :: l :: ks) cs = some ds ↔
    ∃ as rest a b, cs = as ++ '-' :: rest ∧ as.length = k ∧ as.mapM hexDigit? = some a ∧
      readGroups (l :: ks) rest = some b ∧ ds = a ++ b := by
  simp only [readGroups]
  constructor
  · intro h
    split at h
    · rename_i rest hr
      obtain ⟨a, ha, h⟩ := Option.bind_eq_some_iff.1 h
      obtain ⟨b, hb, h⟩ := Option.bind_eq_some_iff.1 h
      have s1 : (cs.take k).length = k := by
        have s2 := congrArg List.length hr
        rw [List.length_drop, List.length_cons] at s2
        rw [List.length_take]
        omega
      exact ⟨cs.take k, rest, a,
        b, by rw [← hr, List.take_append_drop], s1, ha, hb, (Option.some.inj h).symm⟩
    · cases h
  · rintro ⟨as, rest, a, b, rfl, length, ha, hb, rfl⟩
    rw [List.drop_left' length, List.take_left' length, ha]
    show (readGroups (l :: ks) rest).bind (fun bs => some (a ++ bs)) = _
    rw [hb]
    rfl

/-- Groups are read just if characters have been put into them that are read without. -/
theorem readGroups_eq_some_iff {ks : List Nat} : readGroups ks cs = some ds ↔
    ∃ es, cs = hyphenate ks es ∧ es.length = ks.sum ∧ es.mapM hexDigit? = some ds := by
  induction ks generalizing cs ds with
  | nil =>
    rw [readGroups]
    constructor
    · intro h
      split at h
      · cases h
        exact ⟨[], List.isEmpty_iff.1 ‹_›, rfl, rfl⟩
      · cases h
    · rintro ⟨es, rfl, length, h⟩
      rw [List.length_eq_zero_iff.1 length] at h
      exact h
  | cons k ks ih =>
    cases ks with
    | nil =>
      rw [readGroups]
      constructor
      · intro h
        split at h
        · rename_i hk
          exact ⟨cs, (List.take_of_length_le (Nat.le_of_eq hk)).symm, hk, h⟩
        · cases h
      · rintro ⟨es, rfl, hk, h⟩
        have hk' : es.length = k := hk
        rw [hyphenate, List.take_of_length_le (Nat.le_of_eq hk'), if_pos hk', h]
    | cons l ks =>
      rw [readGroups_cons_eq_some_iff]
      constructor
      · rintro ⟨as, rest, a, b, rfl, length, ha, hb, rfl⟩
        obtain ⟨es, rfl, hs, he⟩ := ih.1 hb
        refine ⟨as ++ es, (hyphenate_append length es).symm, ?_,
          mapM_append_eq_some_iff.2 ⟨a, b, ha, he, rfl⟩⟩
        rw [List.length_append, length, hs]
        exact List.sum_cons.symm
      · rintro ⟨es, rfl, hs, h⟩
        rw [List.sum_cons] at hs
        have length : (es.take k).length = k := by
          rw [List.length_take]
          omega
        rw [← List.take_append_drop k es, mapM_append_eq_some_iff] at h
        obtain ⟨a, b, ha, hb, rfl⟩ := h
        refine ⟨es.take k, hyphenate (l :: ks) (es.drop k), a, b, ?_, length, ha,
          ih.2 ⟨_, rfl, ?_, hb⟩, rfl⟩
        · rw [← hyphenate_append length, List.take_append_drop]
        · rw [List.length_drop]
          omega

theorem hyphenated?_eq_some_iff :
    hyphenated? cs = some u ↔ ∃ es, u.IsCased es ∧ cs = hyphenate groups es := by
  rw [hyphenated?, Option.bind_eq_bind, Option.bind_eq_some_iff]
  simp only [ofDigits?_eq_some_iff, exists_eq_right, readGroups_eq_some_iff,
    mapM_hexDigit?_eq_some_iff]
  constructor
  · rintro ⟨es, rfl, -, h⟩
    exact ⟨es, h, rfl⟩
  · rintro ⟨es, h, rfl⟩
    exact ⟨es, rfl, h.length, h⟩

/-! ## Wrappers -/

/-- No digit begins a wrapper, and each is of one byte. -/
theorem of_hexDigit? (h : hexDigit? c = some d) : c ≠ '{' ∧ c.toLower ≠ 'u' ∧ c.utf8Size = 1 := by
  rw [hexDigit?_eq_some_iff] at h
  refine ⟨?_, ?_, Char.utf8Size_eq_one_iff.2 ?_⟩
  · rintro rfl
    revert d
    decide
  · rw [h]
    clear h
    revert d
    decide
  · rcases Nat.lt_or_ge c.toNat 128 with ascii | beyond
    · exact Nat.le_of_lt_succ ascii
    · have s1 := hexChar_lt d
      rw [← h, toLower_of_not_ascii beyond] at s1
      omega

theorem mem_hyphenate {ks : List Nat} (h : c ∈ hyphenate ks es) : c = '-' ∨ c ∈ es := by
  induction ks generalizing es with
  | nil => cases h
  | cons k ks ih =>
    cases ks with
    | nil => exact .inr (List.mem_of_mem_take h)
    | cons l ks =>
      rw [hyphenate, List.mem_append, List.mem_cons] at h
      · obtain h | rfl | h := h
        · exact .inr (List.mem_of_mem_take h)
        · exact .inl rfl
        · exact (ih h).imp_right List.mem_of_mem_drop
      · exact List.cons_ne_nil l ks

theorem byteLength_eq_length (h : ∀ c ∈ cs, c.utf8Size = 1) : byteLength cs = cs.length := by
  induction cs with
  | nil => rfl
  | cons c cs ih =>
    rw [byteLength, h c List.mem_cons_self, ih fun a ha => h a (List.mem_cons_of_mem c ha),
      List.length_cons, Nat.add_comm]

theorem IsCased.byteLength_hyphenate (h : u.IsCased es) :
    byteLength (hyphenate groups es) = 36 := by
  rw [byteLength_eq_length]
  · have s1 := h.length
    simp only [hyphenate, groups, List.length_append, List.length_cons,
      List.length_take, List.length_drop]
    omega
  · intro c hc
    obtain rfl | hm := mem_hyphenate hc
    · rfl
    · obtain ⟨d, hd⟩ := h.isSome hm
      exact (of_hexDigit? hd).2.2

theorem IsCased.hyphenate_eq (h : u.IsCased es) :
    ∃ c d cs, hyphenate groups es = c :: cs ∧ hexDigit? c = some d ∧ '-' ∈ cs := by
  match es, h, h.length with
  | c :: b :: es, h, _ =>
    obtain ⟨d, hd⟩ := h.isSome List.mem_cons_self
    refine ⟨c, d, _, rfl, hd, ?_⟩
    show '-' ∈ (b :: es).take 7 ++ '-' :: _
    exact List.mem_append_right _ List.mem_cons_self

theorem simple?_eq_none (hm : c ∈ cs) (h : hexDigit? c = none) : simple? cs = none := by
  rw [Option.eq_none_iff_forall_ne_some]
  intro u hu
  obtain ⟨d, hd⟩ := (simple?_eq_some_iff.1 hu).isSome hm
  cases h.symm.trans hd

theorem insideBraces?_eq_some_iff : insideBraces? cs = some es ↔ cs = '{' :: (es ++ ['}']) := by
  constructor
  · intro h
    unfold insideBraces? at h
    split at h
    · split at h
      · rename_i rest last
        obtain ⟨ys, rfl⟩ := List.getLast?_eq_some_iff.1 last
        rw [List.dropLast_concat] at h
        cases h
        rfl
      · cases h
    · cases h
  · rintro rfl
    rw [insideBraces?, if_pos List.getLast?_concat, List.dropLast_concat]

theorem afterUrnMark?_eq_some_iff : afterUrnMark? cs = some es ↔
    ∃ mark, mark.map Char.toLower = urnMark ∧ cs = mark ++ es := by
  unfold afterUrnMark?
  constructor
  · intro h
    split at h
    · rename_i hm
      cases h
      exact ⟨cs.take 9, hm, (List.take_append_drop 9 cs).symm⟩
    · cases h
  · rintro ⟨mark, hm, rfl⟩
    have length : mark.length = 9 := by
      have s1 := congrArg List.length hm
      rwa [List.length_map] at s1
    rw [List.take_left' length, List.drop_left' length, if_pos hm]

theorem insideBraces?_eq_none (h : c ≠ '{') (cs : List Char) : insideBraces? (c :: cs) = none := by
  rw [Option.eq_none_iff_forall_ne_some]
  intro es he
  exact h (List.cons.inj (insideBraces?_eq_some_iff.1 he)).1

theorem afterUrnMark?_eq_none (h : c.toLower ≠ 'u') (cs : List Char) :
    afterUrnMark? (c :: cs) = none :=
  if_neg fun same => h (List.cons.inj same).1

theorem unwrapped?_eq_none (h : hexDigit? c = some d) (cs : List Char) :
    unwrapped? (c :: cs) = none := by
  obtain ⟨brace, mark, -⟩ := of_hexDigit? h
  rw [unwrapped?, insideBraces?_eq_none brace, afterUrnMark?_eq_none mark]
  rfl

theorem unwrapped?_eq_some_iff : unwrapped? cs = some es ↔
    (insideBraces? cs).or (afterUrnMark? cs) = some es ∧ byteLength es = 36 := by
  unfold unwrapped?
  split
  · rename_i inner hi
    constructor
    · intro h
      split at h
      · cases h
        exact ⟨hi, ‹_›⟩
      · cases h
    · rintro ⟨same, h⟩
      cases hi.symm.trans same
      exact if_pos h
  · rename_i hi
    rw [hi]
    exact iff_of_false nofun nofun

/-! ## Forms -/

/-- The texts that spell an identifier with the given digits. -/
inductive Spelling (ds : List Char) : List Char → Prop where
  | simple : Spelling ds ds
  | hyphenated : Spelling ds (hyphenate groups ds)
  | braced : Spelling ds ('{' :: (hyphenate groups ds ++ ['}']))
  | urn (mark : List Char) :
    mark.map Char.toLower = urnMark → Spelling ds (mark ++ hyphenate groups ds)

theorem parse_eq_ok_iff_reads : parse cs = .ok u ↔
    simple? cs = some u ∨ simple? cs = none ∧ hyphenated? ((unwrapped? cs).getD cs) = some u := by
  unfold parse
  cases simple? cs with
  | some v => simp
  | none =>
    show (hyphenated? ((unwrapped? cs).getD cs)).elim _ _ = _ ↔ _
    cases hyphenated? ((unwrapped? cs).getD cs) with
    | none => simp
    | some v => simp

theorem parse_of_spelling (h : u.IsCased es) (hs : Spelling es cs) : parse cs = .ok u := by
  have inner : hyphenated? (hyphenate groups es) = some u := hyphenated?_eq_some_iff.2 ⟨es, h, rfl⟩
  rw [parse_eq_ok_iff_reads]
  cases hs with
  | simple => exact .inl (simple?_eq_some_iff.2 h)
  | hyphenated =>
    obtain ⟨c, d, cs, he, hc, hm⟩ := h.hyphenate_eq
    rw [he] at inner ⊢
    refine .inr ⟨simple?_eq_none (List.mem_cons_of_mem c hm) rfl, ?_⟩
    rw [unwrapped?_eq_none hc, Option.getD_none, inner]
  | braced =>
    have unwrapped : unwrapped? ('{' :: (hyphenate groups es ++ ['}'])) =
        some (hyphenate groups es) := by
      rw [unwrapped?_eq_some_iff, insideBraces?_eq_some_iff.2 rfl]
      exact ⟨rfl, h.byteLength_hyphenate⟩
    refine .inr ⟨simple?_eq_none List.mem_cons_self rfl, ?_⟩
    rw [unwrapped, Option.getD_some, inner]
  | urn mark hm =>
    match mark, hm with
    | c :: mark, hm =>
      have first : c.toLower = 'u' := (List.cons.inj hm).1
      have noDigit : hexDigit? c = none := by
        rw [Option.eq_none_iff_forall_ne_some]
        exact fun d hd => (of_hexDigit? hd).2.1 first
      have noBrace : c ≠ '{' := by
        rintro rfl
        cases first
      have unwrapped : unwrapped? (c :: mark ++ hyphenate groups es) =
          some (hyphenate groups es) := by
        rw [unwrapped?_eq_some_iff, List.cons_append, insideBraces?_eq_none noBrace, Option.none_or]
        exact ⟨afterUrnMark?_eq_some_iff.2 ⟨c :: mark, hm, rfl⟩, h.byteLength_hyphenate⟩
      refine .inr ⟨simple?_eq_none List.mem_cons_self noDigit, ?_⟩
      rw [unwrapped, Option.getD_some, inner]

theorem exists_spelling_of_parse (h : parse cs = .ok u) : ∃ es, u.IsCased es ∧ Spelling es cs := by
  rw [parse_eq_ok_iff_reads] at h
  obtain h | ⟨-, h⟩ := h
  · exact ⟨cs, simple?_eq_some_iff.1 h, .simple⟩
  · obtain ⟨es, cased, body⟩ := hyphenated?_eq_some_iff.1 h
    refine ⟨es, cased, ?_⟩
    cases hw : unwrapped? cs with
    | none =>
      rw [hw, Option.getD_none] at body
      exact body ▸ .hyphenated
    | some inner =>
      rw [hw, Option.getD_some] at body
      obtain ⟨wrapped, -⟩ := unwrapped?_eq_some_iff.1 hw
      rw [Option.or_eq_some_iff, insideBraces?_eq_some_iff, afterUrnMark?_eq_some_iff] at wrapped
      obtain rfl | ⟨-, mark, hm, rfl⟩ := wrapped
      · exact body ▸ .braced
      · exact body ▸ .urn mark hm

/-- The four forms of the digits of an identifier are all that is read as it. -/
theorem parse_eq_ok_iff : parse cs = .ok u ↔ ∃ es, u.IsCased es ∧ Spelling es cs :=
  ⟨exists_spelling_of_parse, fun ⟨_, h, hs⟩ => parse_of_spelling h hs⟩

/-! ## The written form -/

theorem chars_eq_hyphenate (u : Uuid) : u.chars = hyphenate groups (u.digits.map hexChar) :=
  writeGroups_eq groups u.digits

theorem isCased_map_hexChar (u : Uuid) : u.IsCased (u.digits.map hexChar) :=
  mapM_hexDigit?_eq_some_iff.1 (mapM_hexDigit?_map u.digits)

theorem parse_chars (u : Uuid) : parse u.chars = .ok u := by
  rw [chars_eq_hyphenate]
  exact parse_of_spelling u.isCased_map_hexChar .hyphenated

end Stockroom.Uuid
