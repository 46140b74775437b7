/-!
# Tokens of YAML

What a text falls into once its indentation has been read: marks for the beginning and end of
blocks, indicators, properties of nodes, and scalars.
-/

namespace EventContract.Yaml

/-- A tag, as the bytes of its name. -/
abbrev Tag := List UInt8

def tagOf (name : String) : Tag := name.toUTF8.toList

/-- A token. The end of the list of tokens is the end of the text. -/
inductive Token where
  | version (major minor : Nat)
  /-- What a handle stands for. -/
  | tagHandle (handle expansion : Tag)
  | documentStart
  | documentEnd
  | blockSequence
  | blockMapping
  | blockEnd
  | flowSequence
  | flowSequenceEnd
  | flowMapping
  | flowMappingEnd
  /-- An item of a block sequence follows. -/
  | entry
  /-- The comma between parts of a flow collection. -/
  | comma
  | key
  | value
  | alias (name : String)
  | anchor (name : String)
  | tag (handle suffix : Tag)
  /-- A scalar; a plain one stands without quotes and is not a block of its own. -/
  | scalar (text : String) (plain : Bool)
  deriving DecidableEq, Repr

end EventContract.Yaml
