import EventContract.Emission.Literal
import EventContract.Emission.Parameter
import EventContract.Name.Pascal
import EventContract.Schema.Typing
import EventContract.Text.Comment
/-!
# The emission header

A C++ header with one inline function per event. The function takes the fields of the payload in
declared order, collects them in a JSON object under their wire names and hands it to the host's
`Broadcast` with the wire name of the event.

The header is a list of lines. A parameter's declaration, its line in the comment and the assignment
of its value all come from the same list of pairs of field and parameter name.
-/

namespace EventContract.Emission

/-- How a header is protected against being included twice. -/
inductive Guard where
  | pragmaOnce
  /-- A condition on a name made from the file's own. -/
  | defined
  deriving DecidableEq, Repr

/-- Settings of the header. -/
structure Options where
  outputName : String
  /-- The namespace around the functions. -/
  enclosing : String
  /-- The header that declares `Broadcast`. -/
  transportInclude : String
  jsonInclude : String
  guard : Guard
  deriving DecidableEq, Repr

/-- Settings as they are when nothing is asked for. -/
def Options.default : Options :=
  ⟨"Events.hpp", "Events", "EventServer.hpp", "nlohmann/json.hpp", .pragmaOnce⟩

/-- The name that guards a header of the given file name. -/
def guardName (outputName : String) : String :=
  String.ofList (Name.guardFront
    (outputName.toList.map fun c => if Name.isAlphanumeric c then c.toUpper else '_'))

/-- A line of a block comment; a blank text leaves the bare margin. -/
def commentLine (text : String) : String :=
  let text := Text.trimmedEnd text
  if text.isEmpty then " *" else " * " ++ text

/-- The description of an event, or a line that names it. -/
def summary (event : Event) : List String :=
  match Text.commentLines event.description with
  | [] => [" * Publish the \"" ++ event.name ++ "\" event."]
  | lines => lines.map commentLine

/-- The line of the comment that describes a parameter. -/
def parameterDoc (field : Field) (parameter : String) : String :=
  commentLine ("@param " ++ parameter ++ " " ++
    Text.joined " " (Text.commentLines field.description))

def declaration (field : Field) (parameter : String) : String :=
  (field.typeFor .emission).parameter parameter

/-- The fields of an event, each with its parameter's name. -/
def parameters (event : Event) : List (Field × String) :=
  event.payload.zip (parameterNames (event.payload.map Field.name))

def documentation (event : Event) : List String :=
  ["/**"] ++ summary event ++ (if event.payload.isEmpty then [] else [" *"]) ++
    (parameters event).map (fun (field, parameter) => parameterDoc field parameter) ++ [" */"]

def signature (event : Event) : String :=
  "inline void " ++ Name.publisher event.name ++ "(" ++
    Text.joined ", " ((parameters event).map fun (field, parameter) =>
      declaration field parameter) ++ ") \x7b"

/-- The line that puts a field's value under its wire name. -/
def assignment (field : Field) (parameter : String) : String :=
  "    payload[" ++ literal field.name ++ "] = " ++ parameter ++ ";"

def broadcast (event : Event) : String :=
  "    Broadcast(" ++ literal event.name ++ ", payload);"

def function (event : Event) : List String :=
  documentation event ++
    [signature event, "    nlohmann::json payload = nlohmann::json::object();"] ++
    (parameters event).map (fun (field, parameter) => assignment field parameter) ++
    [broadcast event, "\x7d", ""]

def guardOpening (options : Options) : List String :=
  match options.guard with
  | .pragmaOnce => ["#pragma once", ""]
  | .defined =>
    let name := guardName options.outputName
    ["#ifndef " ++ name, "#define " ++ name, ""]

def guardClosing (options : Options) : List String :=
  match options.guard with
  | .pragmaOnce => []
  | .defined => ["", "#endif  // " ++ guardName options.outputName]

def includes (options : Options) : List String :=
  ["#include <string>", "#include <vector>", "", "#include <" ++ options.jsonInclude ++ ">", "",
    "#include \"" ++ options.transportInclude ++ "\"", ""]

/-- The lines of the header for a schema; `source` names the schema in the banner. -/
def headerLines (schema : Schema) (options : Options) (source : String) : List String :=
  Text.banner source ++ [""] ++ guardOpening options ++ includes options ++
    ["namespace " ++ options.enclosing ++ " \x7b", ""] ++
    schema.events.flatMap function ++
    ["\x7d  // namespace " ++ options.enclosing] ++ guardClosing options

/-- The header for a schema. -/
def headerText (schema : Schema) (options : Options) (source : String) : String :=
  Text.unlines (headerLines schema options source)

end EventContract.Emission
