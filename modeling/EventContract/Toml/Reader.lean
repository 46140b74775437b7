import EventContract.Toml.Scalar
/-!
# Reading TOML

Version 1.0 of the format: keys with values, line by line, under headers that open tables. A byte
order mark in front is passed over. Arrays and inline tables may be nested only so deep, and a key
may have only so many parts.
-/

namespace EventContract.Toml

/-- Most levels of nesting, and most parts of a key, plus one. -/
def depthLimit : Nat := 80

def isBareChar (c : Char) : Bool :=
  c.isAlphanum || c == '_' || c == '-'

def readPart (cs : List Char) : Option (String × List Char) :=
  match cs with
  | '"' :: rest =>
    (readBasic (rest.length + 1) rest).map fun (text, rest) => (String.ofList text, rest)
  | '\'' :: rest => (readLiteral rest).map fun (text, rest) => (String.ofList text, rest)
  | _ =>
    let part := cs.takeWhile isBareChar
    if part.isEmpty then none else some (String.ofList part, cs.drop part.length)

/-- The parts of a key, with gaps around each: the parts but the last one, and that one. -/
def readKeyParts : Nat → List Char → Option (List String × String × List Char)
  | 0, _ => none
  | fuel + 1, cs => do
    let (part, rest) ← readPart (skipGaps cs)
    match skipGaps rest with
    | '.' :: rest =>
      (readKeyParts fuel rest).map fun (parts, last, rest) => (part :: parts, last, rest)
    | rest => return ([], part, rest)

def readKey (cs : List Char) : Option (List String × String × List Char) :=
  readKeyParts (depthLimit - 1) cs

/-- What follows the comment at the front, if there is one. -/
def skipComment (cs : List Char) : List Char :=
  match cs with
  | '#' :: rest => rest.dropWhile isTextChar
  | _ => cs

def skipLines : Nat → List Char → List Char
  | 0, cs => cs
  | fuel + 1, cs =>
    let rest := skipComment (skipGaps cs)
    match newline? rest with
    | some rest => skipLines fuel rest
    | none => rest

mutual

/-- A value; `depth` bounds the arrays and inline tables in it. -/
def readValue : Nat → Nat → List Char → Option (Value × List Char)
  | 0, _, _ => none
  | fuel + 1, depth, cs =>
    match cs with
    | [] => none
    | '"' :: _ => (readString cs).map fun (text, rest) => (.string text, rest)
    | '\'' :: _ => (readString cs).map fun (text, rest) => (.string text, rest)
    | '[' :: rest =>
      match depth with
      | 0 => none
      | depth + 1 => (readItems fuel depth rest).map fun (items, rest) => (.array items, rest)
    | '\x7b' :: rest =>
      match depth with
      | 0 => none
      | depth + 1 =>
        match skipGaps rest with
        | '\x7d' :: rest => some (.table .inline [], rest)
        | rest =>
          (readMembers fuel depth (.fresh .inline) rest).map fun (t, rest) => (t.value, rest)
    | 't' :: 'r' :: 'u' :: 'e' :: rest => some (.boolean true, rest)
    | 'f' :: 'a' :: 'l' :: 's' :: 'e' :: rest => some (.boolean false, rest)
    | _ => readNumber cs

/-- The items of an array up to the closing bracket. A comma may follow the last one. -/
def readItems : Nat → Nat → List Char → Option (List Value × List Char)
  | 0, _, _ => none
  | fuel + 1, depth, cs =>
    match skipLines (cs.length + 1) cs with
    | ']' :: rest => some ([], rest)
    | cs => do
      let (item, rest) ← readValue fuel depth cs
      match skipLines (rest.length + 1) rest with
      | ',' :: rest => (readItems fuel depth rest).map fun (items, rest) => (item :: items, rest)
      | ']' :: rest => return ([item], rest)
      | _ => none

/-- The members of an inline table from the first one up to the closing brace. -/
def readMembers : Nat → Nat → Grown → List Char → Option (Grown × List Char)
  | 0, _, _, _ => none
  | fuel + 1, depth, t, cs => do
    let (path, key, rest) ← readKey cs
    let (value, rest) ← readValue fuel depth (skipGaps (← expect '=' rest))
    let t ← t.addMember path key value
    match skipGaps rest with
    | ',' :: rest => readMembers fuel depth t rest
    | '\x7d' :: rest => return (t, rest)
    | _ => none

end

/-- The end of a line, with a comment if there is one; what follows it. -/
def readLineEnd (cs : List Char) : Option (List Char) :=
  match skipComment (skipGaps cs) with
  | [] => some []
  | rest => newline? rest

/-- The whole text and the table that its last header opened, as a path. -/
structure Text where
  whole : Grown
  current : List String

def Text.addMember (t : Text) (path : List String) (key : String) (value : Value) : Option Text :=
  (t.whole.change false (Grown.addMember path key value) t.current).map fun whole =>
    { t with whole }

def readLine (t : Text) (cs : List Char) : Option (Text × List Char) :=
  match cs with
  | '[' :: '[' :: rest => do
    let (path, key, rest) ← readKey rest
    let rest ← expect ']' (← expect ']' rest)
    let whole ← t.whole.openTables path key
    return (⟨whole, path ++ [key]⟩, rest)
  | '[' :: rest => do
    let (path, key, rest) ← readKey rest
    let rest ← expect ']' rest
    let whole ← t.whole.openTable path key
    return (⟨whole, path ++ [key]⟩, rest)
  | _ => do
    let (path, key, rest) ← readKey cs
    let rest := skipGaps (← expect '=' rest)
    let (value, rest) ← readValue (2 * rest.length + 2) (depthLimit - 1) rest
    let t ← t.addMember path key value
    return (t, rest)

def readAll : Nat → Text → List Char → Option Text
  | 0, _, _ => none
  | fuel + 1, t, cs =>
    match skipLines (cs.length + 1) cs with
    | [] => some t
    | cs => do
      let (t, rest) ← readLine t cs
      let rest ← readLineEnd rest
      readAll fuel t rest

def read (text : String) : Option (Table Value) :=
  let cs := match text.toList with
    | '\ufeff' :: rest => rest
    | cs => cs
  (readAll (cs.length + 1) ⟨.fresh .opened, []⟩ cs).map fun t => t.whole.members

end EventContract.Toml
