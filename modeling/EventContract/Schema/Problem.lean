import EventContract.Disk.FileError
import EventContract.Text.Lines
import EventContract.Text.Utf8
/-!
# Problems with a schema

Every reason for which a document cannot be read, a chain cannot be folded or a schema is refused,
with its wording in one place.
-/

namespace EventContract

/-- Why a schema is refused. -/
inductive Problem where
  /-- The file could not be read. -/
  | unreadable (path : String) (cause : Disk.FileError)
  /-- The content is not text, or the text is not in its format. -/
  | malformed (origin : String) (encoding : Option Text.Utf8.Fault)
  /-- A known key holds another kind of value than it should. -/
  | wrongKind (origin path expected : String)
  | unknownType (event field tag : String)
  | enumWithoutString (event field : String)
  /-- There is no document of the name that another one extends. -/
  | missingParent (reference referrer : String)
  /-- A chain comes back to a document it already holds. -/
  | cycle (chain : List String)
  | missingEndpoint (origin : String)
  | missingEvents (origin : String)
  | missingName (origin : String) (index : Nat)
  | missingPayload (origin event : String)
  | duplicateEvent (event : String)
  /-- The browser's event stream fires events of this name itself. -/
  | reservedEvent (event : String)
  /-- Two names on the wire give one generated name. -/
  | sameIdentifier (first second identifier : String)
  deriving DecidableEq, Repr

/-- The problem in words. -/
def Problem.message : Problem → String
  | .unreadable path cause => "schema not found at " ++ path ++ ": " ++ cause.message
  | .malformed origin none => "invalid schema syntax in " ++ origin
  | .malformed origin (some fault) => "invalid schema syntax in " ++ origin ++ ": " ++ fault.message
  | .wrongKind origin path expected =>
    "invalid schema in " ++ origin ++ ": '" ++ path ++ "' must be " ++ expected
  | .unknownType event field tag =>
    "unknown type '" ++ tag ++ "' for field '" ++ field ++ "' of event '" ++ event ++ "'"
  | .enumWithoutString event field =>
    "field '" ++ field ++ "' of event '" ++ event ++
      "' declares an enum but is not a string field"
  | .missingParent reference referrer =>
    "extends target '" ++ reference ++ "' referenced from " ++ referrer ++ " not found"
  | .cycle chain => "cyclic extends chain: " ++ Text.joined " -> " chain
  | .missingEndpoint origin => "schema " ++ origin ++ " is missing required field 'endpoint'"
  | .missingEvents origin => "schema " ++ origin ++ " is missing required field 'events'"
  | .missingName origin index =>
    "event #" ++ toString index ++ " in " ++ origin ++ " is missing required field 'name'"
  | .missingPayload origin event =>
    "event '" ++ event ++ "' in " ++ origin ++ " is missing required field 'payload'"
  | .duplicateEvent event => "event '" ++ event ++ "' is defined more than once"
  | .reservedEvent event =>
    "event name '" ++ event ++ "' is reserved by the event stream and cannot be used"
  | .sameIdentifier first second identifier =>
    "events '" ++ first ++ "' and '" ++ second ++ "' both generate '" ++ identifier ++ "'"

end EventContract
