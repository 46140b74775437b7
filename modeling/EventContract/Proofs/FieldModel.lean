import EventContract.Generation
import EventContract.Proofs.DeclaredNames
import EventContract.Proofs.EscapedText
import EventContract.Proofs.SavedSchema

/-! # The model of fields

In the model no event has two fields of one name, and values are restricted for strings only, so
that what is a literal in the consumption module is a string in the header. Loading a document sees
to both. Neither the checks nor the folding of a chain looks at fields, so a contract keeps to the
model exactly if the declarations that it is made of do.
-/

namespace EventContract

/-! ## What the model asks for -/

/-- A literal of a string, or a union of such literals. -/
def TargetType.IsLiteralUnion (type : TargetType) : Prop :=
  ∃ values ≠ [], type.text = Text.joined " | " (values.map Consumption.literal)

/-- The fields of an event as both artifacts take them to be. -/
structure Event.Modelled (event : Event) : Prop where
  names : (event.payload.map Field.name).Nodup
  types : ∀ field ∈ event.payload, (field.typeFor .consumption).IsLiteralUnion →
    (field.typeFor .emission).text = "std::string"

/-- The fields of an event as they are meant to be declared. An empty list of values restricts
nothing. -/
structure Event.WellDeclared (event : Event) : Prop where
  names : (event.payload.map Field.name).Nodup
  restricted : ∀ field ∈ event.payload, ∀ values ≠ [],
    field.allowed = some values → field.type = .string

theorem TargetType.IsLiteralUnion.quote_mem {type : TargetType} (h : type.IsLiteralUnion) :
    '"' ∈ type.text.toList := by
  obtain ⟨values, hvalues, htext⟩ := h
  obtain ⟨value, more, rfl⟩ := List.exists_cons_of_ne_nil hvalues
  rw [htext, Text.joined, List.map_cons]
  cases more.map Consumption.literal with
  | nil =>
      rw [String.intercalate_singleton]
      exact Consumption.quote_mem_literal value
  | cons next rest =>
      rw [String.intercalate_cons_cons, String.toList_append, String.toList_append,
        List.append_assoc]
      exact List.mem_append_left _ (Consumption.quote_mem_literal value)

theorem Field.isLiteralUnion_typeFor_iff (field : Field) :
    (field.typeFor .consumption).IsLiteralUnion ↔
      ∃ values ≠ [], field.allowed = some values := by
  have hplain : ¬ field.type.inConsumption.IsLiteralUnion := by
    intro h
    have hquote : '"' ∉ field.type.inConsumption.text.toList := by cases field.type <;> decide
    exact hquote h.quote_mem
  rw [typeFor]
  split
  next value more hallowed =>
    exact ⟨fun _ => ⟨value :: more, List.cons_ne_nil _ _, hallowed⟩,
      fun _ => ⟨value :: more, List.cons_ne_nil _ _, rfl⟩⟩
  next hother =>
    refine ⟨fun h => absurd h hplain, ?_⟩
    rintro ⟨values, hvalues, hallowed⟩
    obtain ⟨value, more, rfl⟩ := List.exists_cons_of_ne_nil hvalues
    exact absurd hallowed (hother value more)

theorem FieldType.text_inEmission_eq_iff (type : FieldType) :
    type.inEmission.text = "std::string" ↔ type = .string := by
  cases type <;> decide

namespace Event

variable {event : Event}

theorem modelled_iff : event.Modelled ↔ event.WellDeclared := by
  have htypes (field : Field) :
      ((field.typeFor .consumption).IsLiteralUnion →
          (field.typeFor .emission).text = "std::string") ↔
        ∀ values ≠ [], field.allowed = some values → field.type = .string := by
    change (_ → field.type.inEmission.text = "std::string") ↔ _
    rw [field.isLiteralUnion_typeFor_iff, field.type.text_inEmission_eq_iff]
    exact ⟨fun h values hvalues hallowed => h ⟨values, hvalues, hallowed⟩,
      fun h ⟨values, hvalues, hallowed⟩ => h values hvalues hallowed⟩
  constructor
  · intro h
    exact ⟨h.names, fun field hfield => (htypes field).mp (h.types field hfield)⟩
  · intro h
    exact ⟨h.names, fun field hfield => (htypes field).mpr (h.restricted field hfield)⟩

theorem Declarable.wellDeclared (h : event.Declarable) : event.WellDeclared where
  names := h.distinct
  restricted field hfield values _ hallowed := (h.fields field hfield values hallowed).1

/-- No property and no key is written twice for fields of different names. -/
theorem Modelled.keys (h : event.Modelled) :
    (event.payload.map fun field => Consumption.propertyKey field.name).Nodup ∧
      (event.payload.map fun field => Emission.literal field.name).Nodup := by
  have hkeys := h.names.map Consumption.propertyKey_injective
  have hliterals := h.names.map Emission.literal_injective
  rw [List.map_map] at hkeys hliterals
  exact ⟨hkeys, hliterals⟩

end Event

/-! ## Other fields -/

namespace Schema

variable {schema : Schema} {fields : Event → List Field}

/-- The schema with other fields in its events. -/
def refitted (schema : Schema) (fields : Event → List Field) : Schema :=
  { schema with events := schema.events.map fun event => { event with payload := fields event } }

theorem eventNames_refitted : (schema.refitted fields).eventNames = schema.eventNames := by
  rw [eventNames, eventNames, refitted, List.map_map]
  rfl

/-- The check asks for fields and for nothing more of them. -/
theorem WellFormed.refitted (h : schema.WellFormed) (hfields : ∀ event, fields event ≠ []) :
    (schema.refitted fields).WellFormed where
  endpoint := h.endpoint
  complete event hevent := by
    obtain ⟨declared, hdeclared, rfl⟩ := List.mem_map.mp hevent
    exact ⟨(h.complete declared hdeclared).1, hfields declared⟩
  unreserved := by
    rw [eventNames_refitted]
    exact h.unreserved
  types := by
    rw [eventNames_refitted]
    exact h.types

end Schema

/-! ## Contracts -/

/-- A contract keeps to the model of fields exactly if the last declaration of each of its events
does. Loaded documents declare events so. For other documents nothing sees to it: whatever fields
take the place of its own, a contract stays one. -/
theorem contract_modelled_iff (shelf : Shelf) (leaf : Document) (contract : Contract)
    (h : Contract.ofDocument shelf.catalog leaf = .ok contract) :
    (∃ chain, shelf.Lineage leaf chain ∧
      ((∀ event ∈ contract.schema.events, event.Modelled) ↔
        ∀ before event after, Schema.declaredEvents chain = before ++ event :: after →
          (∀ other ∈ after, other.name ≠ event.name) → event.WellDeclared) ∧
      ((∀ document ∈ chain, document.Loaded) →
        ∀ event ∈ contract.schema.events, event.Modelled)) ∧
    (∀ event ∈ contract.schema.events, event.Modelled →
      (event.payload.map fun field => Consumption.propertyKey field.name).Nodup ∧
        (event.payload.map fun field => Emission.literal field.name).Nodup) ∧
    ∀ fields : Event → List Field, (∀ event, fields event ≠ []) → ∀ catalog origin,
      Contract.ofDocument catalog ((contract.schema.refitted fields).asDocument origin) =
        .ok ⟨contract.schema.refitted fields, origin.label⟩ := by
  obtain ⟨schema, hresolved, heq⟩ := bind_eq_ok_iff.mp h
  cases heq
  obtain ⟨chain, lineage, -, -, hchain⟩ := Shelf.ofDocument_eq_ok_iff.mp hresolved
  obtain ⟨-, hevents, hwell⟩ := Schema.ofChain_eq_ok_iff.mp hchain
  have hiff : (∀ event ∈ schema.events, event.Modelled) ↔
      ∀ before event after, Schema.declaredEvents chain = before ++ event :: after →
        (∀ other ∈ after, other.name ≠ event.name) → event.WellDeclared := by
    rw [hevents]
    constructor
    · intro hmodelled before event after hsplit hlast
      exact Event.modelled_iff.mp
        (hmodelled event (hsplit ▸ Schema.mem_merged_of_last hlast))
    · intro hdeclared event hevent
      obtain ⟨before, after, hsplit, hlast⟩ := Schema.last_of_mem_merged hevent
      exact Event.modelled_iff.mpr (hdeclared before event after hsplit hlast)
  refine ⟨⟨chain, lineage, hiff, ?_⟩, fun event _ hmodelled => hmodelled.keys, ?_⟩
  · intro hloaded
    refine hiff.mpr fun before event after hsplit _ => ?_
    obtain ⟨document, hdocument, hdeclared⟩ := List.mem_flatMap.mp
      (hsplit ▸ List.mem_append_right before List.mem_cons_self :
        event ∈ Schema.declaredEvents chain)
    exact ((hloaded document (List.mem_reverse.mp hdocument)).declarable event
      hdeclared).wellDeclared
  · intro fields hfields catalog origin
    exact bind_eq_ok_iff.mpr
      ⟨_, (hwell.refitted hfields).ofDocument_asDocument catalog origin, rfl⟩

theorem contract_modelled_iff_sample :
    Contract.ofDocument (Shelf.empty.insert "base" Sample.status).catalog Sample.tick =
        .ok ⟨⟨"/events", [Sample.statusEvent, Sample.tickEvent]⟩, "an inline schema"⟩ ∧
      ∀ event ∈ [Sample.statusEvent, Sample.tickEvent], event.Modelled := by
  have h : Contract.ofDocument (Shelf.empty.insert "base" Sample.status).catalog Sample.tick =
      .ok ⟨⟨"/events", [Sample.statusEvent, Sample.tickEvent]⟩, "an inline schema"⟩ := rfl
  obtain ⟨⟨chain, lineage, -, hloaded⟩, -⟩ := contract_modelled_iff _ _ _ h
  refine ⟨h, hloaded (lineage.forall_mem Sample.loaded_tick ?_)⟩
  exact Shelf.loaded_insert (by simp [Shelf.empty]) "base" Sample.loaded_status

/-- An event with a restricted number, and a second field of the same name. -/
def Sample.twice : Event :=
  ⟨"tick", "", [⟨"at", .number, "", some ["now"]⟩, ⟨"at", .string, "", none⟩]⟩

/-- The model fails in both parts for a document that is accepted. -/
theorem restricted_number_accepted :
    Contract.ofDocument Shelf.empty.catalog ⟨.inline, some "/events", some [Sample.twice], none⟩ =
        .ok ⟨⟨"/events", [Sample.twice]⟩, "an inline schema"⟩ ∧
      ¬ (Sample.twice.payload.map Field.name).Nodup ∧
      ∃ field ∈ Sample.twice.payload, (field.typeFor .consumption).IsLiteralUnion ∧
        (field.typeFor .emission).text = "int" := by
  refine ⟨rfl, by decide, ⟨"at", .number, "", some ["now"]⟩, List.mem_cons_self, ?_, rfl⟩
  exact ⟨["now"], List.cons_ne_nil _ _, rfl⟩

end EventContract
