import EventContract.Json.Basic
import EventContract.Schema.Basic
import EventContract.Schema.Problem
/-!
# Documents from loosely typed data

`Document.ofJson` turns a JSON value into a document or names the first part that is not of its
kind. Only what is present is looked at: a missing endpoint, a missing list of events or an empty
name is left to the well-formedness checks. Keys without a meaning are passed over.
-/

namespace EventContract

namespace Document

/-- An optional text: absent and null are the same. -/
def optionalText (origin path : String) : Option Json → Except Problem (Option String)
  | none | some .null => .ok none
  | some (.string text) => .ok (some text)
  | some _ => .error (.wrongKind origin path "a string")

/-- The members of a value that has to be an object. -/
def membersOf (origin path : String) : Json → Except Problem (List (String × Json))
  | .object members => .ok members
  | _ => .error (.wrongKind origin path "an object")

/-- A list of texts that restricts a string; an empty list restricts nothing. -/
def allowedValues (origin path : String) : Option Json → Except Problem (Option (List String))
  | none | some .null => .ok none
  | some (.array items) =>
    match items.mapM Json.asString? with
    | some [] => .ok none
    | some values => .ok (some values)
    | none => .error (.wrongKind origin path "a list of strings")
  | some _ => .error (.wrongKind origin path "a list of strings")

/-- The type tag of a field. -/
def typeTag (origin path : String) : Option Json → Except Problem String
  | some (.string tag) => .ok tag
  | _ => .error (.wrongKind origin path "a type name")

/-- A field of the event that messages call `event`, at `path` in the document. -/
def readField (origin event path name : String) (value : Json) : Except Problem Field := do
  let members ← membersOf origin path value
  let tag ← typeTag origin (path ++ ".type") (Table.get? members "type")
  match FieldType.ofTag? tag with
  | none => .error (.unknownType event name tag)
  | some type =>
    let description ← optionalText origin (path ++ ".description")
      (Table.get? members "description")
    let allowed ← allowedValues origin (path ++ ".enum") (Table.get? members "enum")
    if allowed.isSome && type ≠ .string then
      .error (.enumWithoutString event name)
    else
      .ok ⟨name, type, description.getD "", allowed⟩

/-- The fields of a payload, in the order of their keys. -/
def readPayload (origin event path : String) : Option Json → Except Problem (List Field)
  | none | some .null => .ok []
  | some (.object members) =>
    members.mapM fun (name, value) =>
      readField origin event (path ++ ".payload." ++ name) name value
  | some _ => .error (.wrongKind origin (path ++ ".payload") "a map of field definitions")

/-- The event at an index of the list. Messages call an event without a name by its place. -/
def readEvent (origin : String) (index : Nat) (value : Json) : Except Problem Event := do
  let path := "events[" ++ toString index ++ "]"
  let members ← membersOf origin path value
  let name ← optionalText origin (path ++ ".name") (Table.get? members "name")
  let description ← optionalText origin (path ++ ".description")
    (Table.get? members "description")
  let name := name.getD ""
  let called := if name.isEmpty then path else name
  let payload ← readPayload origin called path (Table.get? members "payload")
  return ⟨name, description.getD "", payload⟩

/-- The events from an index on. -/
def readEventsFrom (origin : String) (index : Nat) : List Json → Except Problem (List Event)
  | [] => .ok []
  | value :: rest => do
    let event ← readEvent origin index value
    let events ← readEventsFrom origin (index + 1) rest
    return event :: events

/-- The list of events, if there is one. -/
def readEvents (origin : String) : Option Json → Except Problem (Option (List Event))
  | none | some .null => .ok none
  | some (.array items) => (readEventsFrom origin 0 items).map some
  | some _ => .error (.wrongKind origin "events" "a list")

/-- The document that a value holds. An empty reference to a parent is none. -/
def ofJson (value : Json) (origin : Origin) : Except Problem Document := do
  let shown := origin.display
  let members ← membersOf shown "$" value
  let endpoint ← optionalText shown "endpoint" (Table.get? members "endpoint")
  let parent ← optionalText shown "extends" (Table.get? members "extends")
  let events ← readEvents shown (Table.get? members "events")
  return ⟨origin, endpoint, events, parent.filter fun reference => !reference.isEmpty⟩

end Document

end EventContract
