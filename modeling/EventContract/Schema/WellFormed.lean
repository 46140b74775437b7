import EventContract.Name.Pascal
import EventContract.Schema.Basic
import EventContract.Schema.Problem
/-!
# Well-formed documents and schemas

Only shape is checked. A document may leave its endpoint open if it extends another one; a schema
may leave nothing open, uses no name that the browser's event stream fires itself, and gives every
event a payload type of its own.
-/

namespace EventContract

/-- The events that the browser's event stream fires by itself: connection errors, opens, and
messages without a name. -/
def reservedNames : List String :=
  ["error", "open", "message"]

/-- The first event, counted from `index`, without a name or without fields. -/
def firstIncomplete (origin : String) (index : Nat) : List Event → Except Problem Unit
  | [] => .ok ()
  | event :: rest =>
    if event.name.isEmpty then .error (.missingName origin index)
    else if event.payload.isEmpty then .error (.missingPayload origin event.name)
    else firstIncomplete origin (index + 1) rest

/-- The first name that is reserved or that an earlier event has; `seen` holds the earlier
names. -/
def firstRefusedName (seen : List String) : List Event → Except Problem Unit
  | [] => .ok ()
  | event :: rest =>
    if event.name ∈ reservedNames then .error (.reservedEvent event.name)
    else if event.name ∈ seen then .error (.duplicateEvent event.name)
    else firstRefusedName (event.name :: seen) rest

/-- The first event whose payload type is that of an earlier one; `seen` holds the earlier names,
the latest first. -/
def firstCollision (seen : List String) : List Event → Except Problem Unit
  | [] => .ok ()
  | event :: rest =>
    let type := Name.payloadType event.name
    match seen.find? fun name => Name.payloadType name = type with
    | some first => .error (.sameIdentifier first event.name type)
    | none => firstCollision (event.name :: seen) rest

/-- A text that is there and not empty. -/
def isPresent (text : Option String) : Bool :=
  text.any fun t => !t.isEmpty

/-- Checks one document of a chain. -/
def Document.check (document : Document) : Except Problem Unit :=
  let origin := document.origin.display
  if !isPresent document.endpoint && document.parent.isNone then .error (.missingEndpoint origin)
  else match document.events with
    | none => .error (.missingEvents origin)
    | some events => firstIncomplete origin 0 events

/-- What messages call a schema, whose documents have become one. -/
def Schema.shown : String :=
  "resolved schema"

/-- Checks a schema before anything is written from it. -/
def Schema.check (schema : Schema) : Except Problem Unit := do
  if schema.endpoint.isEmpty then
    .error (.missingEndpoint Schema.shown)
  else
    firstIncomplete Schema.shown 0 schema.events
    firstRefusedName [] schema.events
    firstCollision [] schema.events

end EventContract
