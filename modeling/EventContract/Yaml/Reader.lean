import EventContract.Text.Utf8
import EventContract.Yaml.Layout
import EventContract.Yaml.Node
import EventContract.Yaml.PlainValue
/-!
# Reading YAML

A text holds one document, whose tree becomes a JSON value: a plain scalar by what it means, any
other one by its tag or as a text, and an alias by the node that it refers to. Keys are always the
text of a scalar; of entries with one key the last value counts, at the place of the first.

Sequences and mappings may be nested only so deep, aliases included, which also refuses a node that
holds itself; and aliases may be followed only so often, measured by the size of the document.
-/

namespace EventContract.Yaml

/-- Reading a value, with the number of aliases that may still be followed. -/
abbrev Reading := StateT Nat Option

namespace Node

/-- A tag that is a document's own, which no value can have. An exclamation mark alone is one. -/
def isLocal (tag : Tag) : Bool :=
  match tag with
  | 0x21 :: rest => (Text.Utf8.decodeFrom 0 rest).toOption.isSome
  | _ => false

def scalarValue (tag : Option Tag) (plain : Bool) (text : String) : Option Json :=
  let cs := text.toList
  match tag with
  | none => if plain then PlainValue.value? text else some (.string text)
  | some tag =>
    if isLocal tag then none
    else if tag = tagOf "tag:yaml.org,2002:bool" then (PlainValue.bool? cs).map .bool
    else if tag = tagOf "tag:yaml.org,2002:int" then (PlainValue.integerValue? cs).join
    else if tag = tagOf "tag:yaml.org,2002:float" then PlainValue.float? cs
    else if tag = tagOf "tag:yaml.org,2002:null" then
      if PlainValue.isNull cs then some .null else none
    else if plain && tag.head? = some 0x21 then PlainValue.value? text
    else some (.string text)

/-- The node itself, or the one that an alias refers to: the last one of its number. -/
def follow (anchored : List (Nat × Node)) : Node → Reading Node
  | .alias number => do
    let left ← get
    guard (0 < left)
    set (left - 1)
    match anchored.reverse.find? fun entry => entry.1 == number with
    | some (_, node) => return node
    | none => failure
  | node => return node

def keyText (anchored : List (Nat × Node)) (node : Node) : Reading String := do
  match ← follow anchored node with
  | .scalar _ _ text => return text
  | _ => failure

/-- The value of a node, with at most `depth` levels of nesting. -/
def value (anchored : List (Nat × Node)) : Nat → Node → Reading Json
  | 0, node => do
    match ← follow anchored node with
    | .scalar tag plain text => scalarValue tag plain text
    | _ => failure
  | depth + 1, node => do
    match ← follow anchored node with
    | .scalar tag plain text => scalarValue tag plain text
    | .sequence tag items =>
      guard (!tag.any isLocal)
      return .array (← items.mapM (value anchored depth))
    | .mapping tag entries =>
      guard (!tag.any isLocal)
      let members ← entries.mapM fun (key, node) => do
        let key ← keyText anchored key
        return (key, ← value anchored depth node)
      return .object (Table.ofPairs members)
    | .alias _ => failure

end Node

/-- How many sequences and mappings may be open at a time. -/
def nestingLimit : Nat := 128

/-- How often aliases may be followed, for each beginning or end of a node. -/
def aliasLimit : Nat := 100

/-- The value that a text writes. -/
def read (text : String) : Option Json := do
  let tokens ← tokens? text.toList
  let document ← Document.ofTokens? tokens
  let (value, _) ← (document.root.value document.anchored.toList nestingLimit).run
    (aliasLimit * document.size)
  return value

end EventContract.Yaml
