/-!
# Event schemas

A document declares events, each with an ordered payload of typed fields, and the endpoint of the
stream that carries them. It may extend another document. A chain of documents is folded into a
`Schema`, in which nothing is left open and from which both artifacts are written.
-/

namespace EventContract

/-- The abstract type of a payload field. -/
inductive FieldType where
  | number
  | string
  | boolean
  | numberList
  | stringList
  | object
  deriving DecidableEq, Repr

namespace FieldType

/-- All field types. -/
def all : List FieldType :=
  [.number, .string, .boolean, .numberList, .stringList, .object]

/-- The word for a type in documents. -/
def tag : FieldType → String
  | .number => "number"
  | .string => "string"
  | .boolean => "boolean"
  | .numberList => "number-list"
  | .stringList => "string-list"
  | .object => "object"

/-- The type that a word stands for. -/
def ofTag? (word : String) : Option FieldType :=
  all.find? fun type => type.tag = word

/-- Reading back a type's own word. -/
theorem ofTag?_tag (type : FieldType) : ofTag? type.tag = some type := by
  cases type <;> decide

end FieldType

/-- One field of a payload. Its name is the key on the wire. -/
structure Field where
  name : String
  type : FieldType
  description : String
  /-- The values a string may take, in declared order, if they are restricted. -/
  allowed : Option (List String)
  deriving DecidableEq, Repr

/-- An event: its name on the wire and its payload in declared order. -/
structure Event where
  name : String
  description : String
  payload : List Field
  deriving DecidableEq, Repr

/-- Where a document comes from. -/
inductive Origin where
  | file (path : String)
  | named (name : String)
  | inline
  deriving DecidableEq, Repr

/-- An origin in messages. -/
def Origin.display : Origin → String
  | .file path => path
  | .named name => "'" ++ name ++ "'"
  | .inline => "<inline>"

/-- A single document before its chain is folded. What it leaves out is none. -/
structure Document where
  origin : Origin
  endpoint : Option String
  events : Option (List Event)
  /-- The document this one extends, named relative to it. -/
  parent : Option String
  deriving DecidableEq, Repr

/-- The endpoint and the events of a whole chain. -/
structure Schema where
  endpoint : String
  events : List Event
  deriving DecidableEq, Repr

namespace Schema

/-- The first event of a name. -/
def event? (schema : Schema) (name : String) : Option Event :=
  schema.events.find? fun event => event.name = name

/-- The wire names, in order. -/
def eventNames (schema : Schema) : List String :=
  schema.events.map Event.name

end Schema

end EventContract
