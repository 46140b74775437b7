import EventContract.Number.Double
import EventContract.Table
/-!
# JSON values

The loosely typed data that documents are written in. Members of an object keep their order, and an
integer of 64 bits is told apart from a number of double precision.
-/

namespace EventContract

/-- A number: an integer that fits into 64 bits, with or without a sign, or else one of double
precision. Zero with a minus sign is of double precision. -/
inductive Json.Number where
  | integer (value : Int)
  | double (value : Double)
  deriving DecidableEq, Repr, Inhabited

/-- A JSON value. -/
inductive Json where
  | null
  | bool (value : Bool)
  | number (value : Json.Number)
  | string (text : String)
  | array (items : List Json)
  | object (members : List (String × Json))
  deriving Inhabited

namespace Json

/-- The member of an object under a key; nothing for any other value. -/
def get? (value : Json) (key : String) : Option Json :=
  match value with
  | .object members => Table.get? members key
  | _ => none

/-- The text of a string. -/
def asString? : Json → Option String
  | .string text => some text
  | _ => none

/-- A character that may stand between the parts of a text. -/
def isSpacing (c : Char) : Bool :=
  c == ' ' || c == '\t' || c == '\n' || c == '\r'

end Json

end EventContract
