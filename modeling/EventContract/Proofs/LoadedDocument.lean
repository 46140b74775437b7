import EventContract.Proofs.DistinctKeys
import EventContract.Proofs.DocumentGrammar
import EventContract.Schema.Chain

/-! # What a loaded document can hold

A document that was loaded, unlike one that was put together by hand, has no field twice in an
event, and values are restricted for strings only and never to none.
-/

namespace EventContract

/-- What a document can say of a field. -/
def Field.Declarable (field : Field) : Prop :=
  ∀ values, field.allowed = some values → field.type = .string ∧ values ≠ []

/-- What a document can say of an event. -/
structure Event.Declarable (event : Event) : Prop where
  distinct : (event.payload.map Field.name).Nodup
  fields : ∀ field ∈ event.payload, field.Declarable

namespace Document

variable {key : String} {value : Json} {members : List (String × Json)}

theorem keysDistinct_of_get? (hvalue : (Json.object members).KeysDistinct)
    {part : Json} (hpart : Table.get? members key = some part) : part.KeysDistinct := by
  cases hvalue with
  | object _ hmembers => exact hmembers _ (Table.mem_of_get? hpart)

/-! ## What a value with distinct keys means -/

theorem MeansField.declarable {member : String × Json} {field : Field}
    (h : MeansField member field) : field.name = member.1 ∧ field.Declarable := by
  obtain ⟨members, type, description, texts, -, -, -, -, hstring, rfl⟩ := h
  refine ⟨rfl, fun values hvalues => ?_⟩
  obtain ⟨rfl, hnonempty⟩ := Option.filter_eq_some_iff.mp hvalues
  have hvalues : values ≠ [] := of_decide_eq_true hnonempty
  exact ⟨hstring hvalues, hvalues⟩

theorem declarable_of_forall₂ {payload : List Field} (h : List.Forall₂ MeansField members payload) :
    payload.map Field.name = Table.keys members ∧ ∀ field ∈ payload, field.Declarable := by
  induction h with
  | nil => exact ⟨rfl, by simp⟩
  | @cons member field members payload hfield _ ih =>
      obtain ⟨hname, hdeclarable⟩ := hfield.declarable
      constructor
      · rw [List.map_cons, hname, ih.1]
        rfl
      · exact List.forall_mem_cons.mpr ⟨hdeclarable, ih.2⟩

theorem MeansPayload.declarable {payload : List Field} (hvalue : value.KeysDistinct)
    (h : MeansPayload value payload) :
    (payload.map Field.name).Nodup ∧ ∀ field ∈ payload, field.Declarable := by
  obtain ⟨members, rfl, hmembers⟩ := h
  obtain ⟨hnames, hfields⟩ := declarable_of_forall₂ hmembers
  rw [hnames]
  cases hvalue with
  | object hdistinct _ => exact ⟨hdistinct, hfields⟩

theorem MeansEvent.declarable {event : Event} (hvalue : value.KeysDistinct)
    (h : MeansEvent value event) : event.Declarable := by
  obtain ⟨members, name, description, payload, rfl, -, -, hpayload, rfl⟩ := h
  cases payload with
  | none => exact ⟨List.nodup_nil, by simp⟩
  | some payload =>
      obtain ⟨value, hpart, hpayload⟩ := hpayload.exists_value
      obtain ⟨hdistinct, hfields⟩ := hpayload.declarable (keysDistinct_of_get? hvalue hpart)
      exact ⟨hdistinct, hfields⟩

theorem MeansEventList.declarable {events : List Event} (hvalue : value.KeysDistinct)
    (h : MeansEventList value events) : ∀ event ∈ events, event.Declarable := by
  obtain ⟨items, rfl, hevents⟩ := h
  cases hvalue with
  | array hitems =>
      induction hevents with
      | nil => simp
      | cons hevent _ ih =>
          obtain ⟨hitem, hmore⟩ := List.forall_mem_cons.mp hitems
          exact List.forall_mem_cons.mpr ⟨hevent.declarable hitem, ih hmore⟩

theorem MeansDocument.declarable {origin : Origin} {document : Document}
    (hvalue : value.KeysDistinct) (h : MeansDocument origin value document) :
    ∀ event ∈ Schema.eventsOf document, event.Declarable := by
  obtain ⟨members, endpoint, reference, events, rfl, -, -, hevents, rfl⟩ := h
  cases events with
  | none => simp [Schema.eventsOf]
  | some events =>
      obtain ⟨value, hpart, hevents⟩ := hevents.exists_value
      exact hevents.declarable (keysDistinct_of_get? hvalue hpart)

/-- A document that was loaded from a value or a text, and may since have been given another
origin. -/
inductive Loaded : Document → Prop
  | ofJson {value origin document} (hvalue : value.KeysDistinct)
      (h : ofJson value origin = .ok document) : Loaded document
  | ofText {text format origin document} (h : ofText text format origin = .ok document) :
      Loaded document
  | moved {document} (h : Loaded document) (origin : Origin) :
      Loaded { document with origin := origin }

theorem Loaded.declarable {document : Document} (h : document.Loaded) :
    ∀ event ∈ Schema.eventsOf document, event.Declarable := by
  induction h with
  | ofJson hvalue h => exact (ofJson_eq_ok_iff.mp h).declarable hvalue
  | @ofText text format origin document h =>
      unfold Document.ofText at h
      split at h
      next hread =>
        exact (ofJson_eq_ok_iff.mp h).declarable (Format.keysDistinct_of_read hread)
      next => cases h
  | moved _ _ ih => exact ih

end Document

end EventContract
