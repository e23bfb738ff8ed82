import Stockroom.Proofs.Document.Part

/-! A command is read back from its document, if its numbers are words of 64 bits and its decimals
no negative zeros. No document of a command can be taken for one of another kind. -/
namespace Stockroom
set_option autoImplicit false

open Stockroom.Part

namespace Action

/-- The numbers of an action have a place in its document. -/
def IsWritable : Action → Prop
  | .create details => details.IsWritable
  | .reserve _ quantity _ _ => fitsInt64 quantity = true
  | .release _ quantity _ => fitsInt64 quantity = true
  | .consume _ quantity => fitsInt64 quantity = true
  | .adjust delta _ _ => fitsInt64 delta = true
  | .expire => True
  | .deactivate _ => True

theorem timed?_timed {a : Action} (h : a.IsWritable) (t : Timestamp) :
    timed? kinds (timed a.tag a.fields t) = some (a, t) := by
  cases a with
  | create details => exact isProper_item.timed?_timed (restores_item h _) rfl rfl rfl
  | reserve id q notes expiresAt =>
    exact isProper_hold.timed?_timed (restores_hold h notes expiresAt) rfl rfl rfl
  | release id q reason =>
    exact isProper_giveBack.timed?_timed (restores_giveBack h reason) rfl rfl rfl
  | consume id q => exact isProper_units.timed?_timed (restores_units h) rfl rfl rfl
  | adjust delta reason reference =>
    exact isProper_correction.timed?_timed (restores_correction h reason reference) rfl rfl rfl
  | expire => exact isProper_nothing.timed?_timed restores_nothing rfl rfl rfl
  | deactivate reason => exact isProper_reason.timed?_timed (restores_reason reason) rfl rfl rfl

theorem tag_of_mem_kinds : ∀ k ∈ kinds, ∀ fs a, k.ofFields? fs = some a → tag a = k.tag := by
  simp only [kinds, List.forall_mem_cons]
  exact ⟨tag_kind fun _ => rfl, tag_kind fun _ => rfl, tag_kind fun _ => rfl, tag_kind fun _ => rfl,
    tag_kind fun _ => rfl, tag_kind fun _ => rfl, tag_kind fun _ => rfl, List.forall_mem_nil _⟩

/-- The kinds stand in the order of the actions. -/
theorem idxOf_tag (a : Action) : (kinds.map Kind.tag).idxOf a.tag = a.ctorIdx := by
  cases a <;> rfl

end Action

namespace Command

variable {c d : Command}

theorem ofJson?_toJson (h : c.action.IsWritable) : Command.ofJson? c.toJson = some c := by
  rw [ofJson?, toJson, Action.timed?_timed h]
  rfl

/-- The document of a command is read as a command of no other kind. -/
theorem ctorIdx_eq (h : Command.ofJson? c.toJson = some d) :
    d.action.ctorIdx = c.action.ctorIdx := by
  obtain ⟨p, hp, rfl⟩ := Option.map_eq_some_iff.1 h
  have same : p.1.tag = c.action.tag := tag_eq_of_timed? Action.tag_of_mem_kinds hp
  rw [← Action.idxOf_tag, ← Action.idxOf_tag, ← same]

end Command

end Stockroom
