import Stockroom.Proofs.Document.Part

/-! An event is read back from its document, if its numbers are words of 64 bits and its decimals no
negative zeros. No document of an event can be taken for one of another kind. -/
namespace Stockroom
set_option autoImplicit false

open Stockroom.Part

namespace Change

/-- The numbers of a change have a place in its document. -/
def IsWritable : Change → Prop
  | .created _ _ details => details.IsWritable
  | .reserved _ quantity _ _ => fitsInt64 quantity = true
  | .released _ quantity _ => fitsInt64 quantity = true
  | .consumed _ quantity held => fitsInt64 quantity = true ∧ fitsInt64 held = true
  | .expired _ quantity => fitsInt64 quantity = true
  | .adjusted delta _ _ => fitsInt64 delta = true
  | .deactivated _ => True

theorem timed?_timed {c : Change} (h : c.IsWritable) (t : Timestamp) :
    timed? kinds (timed c.tag c.fields t) = some (c, t) := by
  cases c with
  | created id sku details =>
    exact isProper_record.timed?_timed (restores_record h id sku) rfl rfl rfl
  | reserved id q notes expiresAt =>
    exact isProper_hold.timed?_timed (restores_hold h notes expiresAt) rfl rfl rfl
  | released id q reason =>
    exact isProper_giveBack.timed?_timed (restores_giveBack h reason) rfl rfl rfl
  | consumed id q held =>
    exact isProper_shipment.timed?_timed (restores_shipment h.1 h.2) rfl rfl rfl
  | expired id q => exact isProper_units.timed?_timed (restores_units h) rfl rfl rfl
  | adjusted delta reason reference =>
    exact isProper_correction.timed?_timed (restores_correction h reason reference) rfl rfl rfl
  | deactivated reason => exact isProper_reason.timed?_timed (restores_reason reason) rfl rfl rfl

theorem tag_of_mem_kinds : ∀ k ∈ kinds, ∀ fs c, k.ofFields? fs = some c → tag c = k.tag := by
  simp only [kinds, List.forall_mem_cons]
  exact ⟨tag_kind fun _ => rfl, tag_kind fun _ => rfl, tag_kind fun _ => rfl, tag_kind fun _ => rfl,
    tag_kind fun _ => rfl, tag_kind fun _ => rfl, tag_kind fun _ => rfl, List.forall_mem_nil _⟩

/-- The kinds stand in the order of the changes. -/
theorem idxOf_tag (c : Change) : (kinds.map Kind.tag).idxOf c.tag = c.ctorIdx := by
  cases c <;> rfl

end Change

namespace Event

variable {d e : Event}

theorem ofJson?_toJson (h : e.change.IsWritable) : Event.ofJson? e.toJson = some e := by
  rw [ofJson?, toJson, Change.timed?_timed h]
  rfl

/-- The document of an event is read as an event of no other kind. -/
theorem ctorIdx_eq (h : Event.ofJson? e.toJson = some d) : d.change.ctorIdx = e.change.ctorIdx := by
  obtain ⟨p, hp, rfl⟩ := Option.map_eq_some_iff.1 h
  have same : p.1.tag = e.change.tag := tag_eq_of_timed? Change.tag_of_mem_kinds hp
  rw [← Change.idxOf_tag, ← Change.idxOf_tag, ← same]

end Event

end Stockroom
