import EventContract.Name.Identifier
/-!
# Parameter names of the emission header

Every field of a payload becomes a parameter of the function that publishes its event. The name of
the parameter is the field's, made an identifier and kept apart from words that mean something in
the header; where two fields come to the same name, the later ones are numbered. The key on the wire
is not touched by this.
-/

namespace EventContract.Emission

/-- Keywords, and the names that the body of a function refers to. -/
def reservedWords : List String :=
  ["alignas", "alignof", "and", "asm", "auto", "bool", "break", "case", "catch", "char",
    "class", "const", "constexpr", "continue", "default", "delete", "do", "double", "else",
    "enum", "explicit", "export", "extern", "false", "float", "for", "friend", "goto", "if",
    "inline", "int", "long", "mutable", "namespace", "new", "noexcept", "not", "nullptr",
    "operator", "or", "private", "protected", "public", "register", "return", "short",
    "signed", "sizeof", "static", "struct", "switch", "template", "this", "throw", "true",
    "try", "typedef", "typename", "union", "unsigned", "using", "virtual", "void", "volatile",
    "while", "payload", "Broadcast", "nlohmann", "std"]

/-- The characters of a name with an underscore for each that may not stand in an identifier. -/
def identifierChars (cs : List Char) : List Char :=
  Name.guardFront (cs.map fun c => if Name.isIdentifierChar c then c else '_')

def parameterName (field : String) : String :=
  let name := String.ofList (identifierChars field.toList)
  if name ∈ reservedWords then name ++ "_" else name

/-- The `n`-th name to try for a parameter: the name itself, then the name with 2, 3 and so on. -/
def candidate (base : String) (n : Nat) : String :=
  if n = 0 then base else base ++ "_" ++ toString (n + 1)

/-- The first candidate that is not taken. One more candidate than there are names taken is
enough. -/
def freshName (taken : List String) (base : String) : String :=
  (((List.range (taken.length + 1)).map (candidate base)).find? fun name => name ∉ taken).getD base

/-- Names for the remaining fields, apart from those already taken. -/
def parameterNamesFrom (taken : List String) : List String → List String
  | [] => []
  | field :: rest =>
    let name := freshName taken (parameterName field)
    name :: parameterNamesFrom (name :: taken) rest

/-- The parameter names of a payload with fields of the given names, in the same order. -/
def parameterNames (fields : List String) : List String :=
  parameterNamesFrom [] fields

end EventContract.Emission
