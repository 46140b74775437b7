import EventContract.Disk.Path
import EventContract.Json.Reader
import EventContract.Schema.Reading
import EventContract.Yaml.Reader
/-!
# Documents from text

A document is written in JSON or in YAML; a file's name tells which. Text that is not of its format
is malformed, whatever the fault.
-/

namespace EventContract

/-- The notation of a document. -/
inductive Format where
  | json
  | yaml
  deriving DecidableEq, Repr

namespace Format

/-- The word for a format. -/
def word : Format → String
  | .json => "json"
  | .yaml => "yaml"

/-- The format of a file: YAML if its extension says so, in any mix of cases, else JSON. -/
def ofPath (path : String) : Format :=
  match (Disk.Path.extension? path).map String.toLower with
  | some "yaml" => .yaml
  | some "yml" => .yaml
  | _ => .json

/-- The value that a text writes. -/
def read : Format → String → Option Json
  | .json, text => Json.read text
  | .yaml, text => Yaml.read text

end Format

namespace Document

/-- The document that a text writes. -/
def ofText (text : String) (format : Format) (origin : Origin) : Except Problem Document :=
  match format.read text with
  | some value => ofJson value origin
  | none => .error (.malformed origin.display none)

/-- The document that a file of the given path and content holds. -/
def ofBytes (content : ByteArray) (path : String) : Except Problem Document :=
  match Text.Utf8.decode content with
  | .ok text => ofText text (Format.ofPath path) (.file path)
  | .error fault => .error (.malformed path (some fault))

end Document

end EventContract
