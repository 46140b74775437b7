import EventContract.Json.Quoted
import EventContract.Name.Identifier
/-!
# Literals and keys of the consumption module

A string literal of JSON is one of TypeScript too. A property key stands bare where it is an
identifier, in which a dollar sign is a letter, and is quoted otherwise.
-/

namespace EventContract.Consumption

/-- The literal of a text. -/
def literal (text : String) : String :=
  Json.Quoted.quote text

def isBareKey (name : String) : Bool :=
  Name.isIdentifierChars (name.toList.map fun c => if c = '$' then '_' else c)

def propertyKey (name : String) : String :=
  if isBareKey name then name else literal name

end EventContract.Consumption
