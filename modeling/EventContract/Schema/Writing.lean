import EventContract.Json.Writer
import EventContract.Schema.Basic
/-!
# Schemas as JSON

A schema is written as the document that declares it: an object with the endpoint and the list of
events, each payload an object keyed by field name. Empty descriptions are left out, and so is the
list of allowed values of a field that has none.
-/

namespace EventContract

/-- A description as a member, left out when empty. -/
def descriptionMember (text : String) : List (String × Json) :=
  if text.isEmpty then [] else [("description", .string text)]

/-- Allowed values as a member, left out when there is no restriction. -/
def allowedMember : Option (List String) → List (String × Json)
  | none => []
  | some values => [("enum", .array (values.map .string))]

/-- The definition of a field. -/
def Field.toJson (field : Field) : Json :=
  .object (("type", .string field.type.tag) ::
    (descriptionMember field.description ++ allowedMember field.allowed))

/-- A payload as an object keyed by field name. -/
def payloadObject (payload : List Field) : Json :=
  .object (payload.map fun field => (field.name, field.toJson))

/-- An event as an object. -/
def Event.toJson (event : Event) : Json :=
  .object (("name", .string event.name) ::
    (descriptionMember event.description ++ [("payload", payloadObject event.payload)]))

/-- A schema as an object. -/
def Schema.toJson (schema : Schema) : Json :=
  .object [("endpoint", .string schema.endpoint),
    ("events", .array (schema.events.map Event.toJson))]

end EventContract
