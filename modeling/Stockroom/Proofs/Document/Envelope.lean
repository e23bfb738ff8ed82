import Stockroom.Document.Envelope
import Stockroom.Proofs.Document.Event

/-! An envelope is read back from its document, whatever value it carries. The documents of events
are such values, so that an event gets through an envelope. -/
namespace Stockroom
set_option autoImplicit false

namespace Json

/-! ## Values -/

/-- Documents that are values as they stand: all parts of them are readable, and no object has
two members of one name. -/
inductive IsValue : Json → Prop where
  | null : IsValue .null
  | bool (b : Bool) : IsValue (.bool b)
  | integer (n : Int) : IsValue (.integer n)
  | real (x : Float) : IsValue (.real x)
  | text (s : String) : IsValue (.text s)
  | array (items : List Json) (h : ∀ j ∈ items, IsValue j) : IsValue (.array items)
  | object (members : Fields) (h : ∀ m ∈ members, IsValue m.2)
    (distinct : (members.map Prod.fst).Nodup) : IsValue (.object members)

theorem settleItems_eq {items : List Json} (h : ∀ j ∈ items, settle j = some j) :
    settleItems items = some items := by
  induction items with
  | nil => rw [settleItems]
  | cons j items ih =>
    rw [settleItems, h j List.mem_cons_self, ih fun k hk => h k (List.mem_cons_of_mem j hk)]

theorem settleMembers_eq {ms : Fields} (h : ∀ m ∈ ms, settle m.2 = some m.2) :
    settleMembers ms = some ms := by
  induction ms with
  | nil => rw [settleMembers]
  | cons m ms ih =>
    obtain ⟨name, j⟩ := m
    rw [settleMembers, h (name, j) List.mem_cons_self,
      ih fun k hk => h k (List.mem_cons_of_mem _ hk)]

theorem lastOfEach_eq {ms : Fields} (h : (ms.map Prod.fst).Nodup) : lastOfEach ms = ms := by
  induction ms with
  | nil => rfl
  | cons m ms ih =>
    obtain ⟨name, j⟩ := m
    rw [List.map_cons] at h
    obtain ⟨h1, h2⟩ := List.nodup_cons.1 h
    have unique : ¬(ms.any fun m => m.1 == name) = true := by
      intro ha
      obtain ⟨m, hm, e⟩ := List.any_eq_true.1 ha
      exact h1 (List.mem_map.2 ⟨m, hm, beq_iff_eq.1 e⟩)
    rw [lastOfEach, if_neg unique, ih h2]

/-- A value stands for itself. -/
theorem IsValue.settle_eq {j : Json} (h : j.IsValue) : settle j = some j := by
  induction h with
  | array items _ ih => rw [settle, settleItems_eq ih, Option.map_some]
  | object ms _ hd ih => rw [settle, settleMembers_eq ih, Option.map_some, lastOfEach_eq hd]
  | _ => rw [settle]

theorem isValue_ofOption {α : Type} {write : α → Json} (h : ∀ a, (write a).IsValue) (x : Option α) :
    (ofOption write x).IsValue := by
  cases x with
  | none => exact .null
  | some a => exact h a

theorem isValue_optionalText (x : Option String) : (ofOption .text x).IsValue :=
  isValue_ofOption .text x

theorem isValue_optionalTimestamp (x : Option Timestamp) : (ofOption Timestamp.toJson x).IsValue :=
  isValue_ofOption (fun _ => .text _) x

end Json

/-! ## Documents of events are values -/

theorem Thresholds.isValue_toJson (t : Thresholds) : t.toJson.IsValue := by
  refine .object _ ?_ (by simp)
  simp only [List.forall_mem_cons]
  exact ⟨.integer _, .integer _, List.forall_mem_nil _⟩

theorem Part.isValue_item (quantityName : String) (d : ItemDetails) :
    ∀ m ∈ (item quantityName).fields d, m.2.IsValue := by
  simp only [item, List.forall_mem_cons]
  exact ⟨.text _, .integer _, d.thresholds.isValue_toJson,
    Json.isValue_ofOption (fun _ => .text _) _, Json.isValue_optionalText _,
    Json.isValue_optionalTimestamp _, List.forall_mem_nil _⟩

theorem Change.isValue_fields (c : Change) : ∀ m ∈ c.fields, m.2.IsValue := by
  cases c with
  | created id sku details =>
    simp only [fields, Part.record, List.forall_mem_cons]
    exact ⟨.text _, .text _, Part.isValue_item "on_hand" details⟩
  | reserved id q notes expiresAt =>
    simp only [fields, Part.hold, List.forall_mem_cons]
    exact ⟨.text _, .integer _, Json.isValue_optionalText _,
      Json.isValue_optionalTimestamp _, List.forall_mem_nil _⟩
  | released id q reason =>
    simp only [fields, Part.giveBack, List.forall_mem_cons]
    exact ⟨.text _, .integer _, Json.isValue_optionalText _, List.forall_mem_nil _⟩
  | consumed id q held =>
    simp only [fields, Part.shipment, List.forall_mem_cons]
    exact ⟨.text _, .integer _, .integer _, List.forall_mem_nil _⟩
  | expired id q =>
    simp only [fields, Part.units, List.forall_mem_cons]
    exact ⟨.text _, .integer _, List.forall_mem_nil _⟩
  | adjusted delta reason reference =>
    simp only [fields, Part.correction, List.forall_mem_cons]
    exact ⟨.integer _, Json.isValue_optionalText _,
      Json.isValue_optionalText _, List.forall_mem_nil _⟩
  | deactivated reason =>
    simp only [fields, Part.reason, List.forall_mem_cons]
    exact ⟨Json.isValue_optionalText _, List.forall_mem_nil _⟩

theorem Change.distinct_fields (c : Change) (t : Timestamp) :
    ((c.fields ++ [momentField t]).map Prod.fst).Nodup := by
  cases c with
  | created => exact Part.isProper_record.distinct_fields _ t
  | reserved => exact Part.isProper_hold.distinct_fields _ t
  | released => exact Part.isProper_giveBack.distinct_fields _ t
  | consumed => exact Part.isProper_shipment.distinct_fields _ t
  | expired => exact Part.isProper_units.distinct_fields _ t
  | adjusted => exact Part.isProper_correction.distinct_fields _ t
  | deactivated => exact Part.isProper_reason.distinct_fields _ t

theorem Event.isValue_toJson (e : Event) : e.toJson.IsValue := by
  obtain ⟨c, t⟩ := e
  have parts : ∀ m ∈ c.fields ++ [momentField t], m.2.IsValue := by
    intro m hm
    rcases List.mem_append.1 hm with hm | hm
    · exact c.isValue_fields m hm
    · cases List.mem_singleton.1 hm
      exact .text _
  refine .object _ (fun m hm => ?_) (by simp)
  cases List.mem_singleton.1 hm
  exact .object _ parts (c.distinct_fields t)

/-! ## Envelopes -/

theorem Envelope.ofJson?_toJson {v : Envelope} (hn : fitsUInt64 v.sequenceNumber = true)
    (hp : v.payload.IsValue) : Envelope.ofJson? v.toJson = some v := by
  have s1 : Json.fields? fieldNames v.toJson = some v.toJson.members := rfl
  generalize hf : v.toJson.members = fs at s1
  have f1 : Json.required "event_id" Uuid.ofJson? fs = some v.eventId :=
    Json.required_of_member (hf ▸ rfl) v.eventId.ofJson?_toJson
  have f2 : Json.required "record_id" RecordId.ofJson? fs = some v.recordId :=
    Json.required_of_member (hf ▸ rfl) v.recordId.ofJson?_toJson
  have f3 : Json.required "sku_code" SkuCode.ofJson? fs = some v.sku :=
    Json.required_of_member (hf ▸ rfl) v.sku.ofJson?_toJson
  have m4 : Json.member? "event_type" fs = some (.text v.eventType) := hf ▸ rfl
  have f4 : Json.required "event_type" Json.text? fs = some v.eventType :=
    Json.required_of_member m4 rfl
  have f5 : Json.required "sequence_number" Json.uint64? fs = some v.sequenceNumber :=
    Json.required_uint64 (hf ▸ rfl) hn
  have f6 : Json.required "payload" Json.settle fs = some v.payload :=
    Json.required_of_member (hf ▸ rfl) hp.settle_eq
  rw [Envelope.ofJson?, bind_of_eq_some s1, bind_of_eq_some f1,
    bind_of_eq_some f2, bind_of_eq_some f3, bind_of_eq_some f4,
    bind_of_eq_some f5, bind_of_eq_some f6]
  rfl

/-- A notice can be read, and so can the event in it. -/
structure Envelope.Conveys (v : Envelope) (e : Event) : Prop where
  envelope : Envelope.ofJson? v.toJson = some v
  payload : Event.ofJson? v.payload = some e
  eventType : v.eventType = e.type

theorem Envelope.conveys_about {record : StockRecord} {e : Event}
    (hv : fitsUInt64 record.version = true) (hw : e.change.IsWritable) (eventId : Uuid) :
    (Envelope.about eventId record e).Conveys e where
  envelope := ofJson?_toJson hv e.isValue_toJson
  payload := Event.ofJson?_toJson hw
  eventType := rfl

end Stockroom
