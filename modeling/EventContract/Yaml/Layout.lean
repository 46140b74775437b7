import EventContract.Yaml.Property
import EventContract.Yaml.ScalarText
/-!
# Tokens from layout

Reading the tokens of a text means reading its indentation. Outside flow collections a deeper column
opens a block and a lesser one closes blocks. A mapping shows only at the colon behind its first
key, so the place of every node that may turn out to be a key is kept: when the colon comes, the
mark of the key, and of the mapping if it begins here, is put in front of that node.

A node may be a key without a mark only if its colon follows on the same line and within 1024 bytes.
Inside a block mapping every further node at its column has to be a key.

A byte order mark at the first column of a line, where a token may begin, is no part of the text but
takes its column: what follows it stands at the second one.
-/

namespace EventContract.Yaml

/-- A node that may turn out to be a key. -/
structure PossibleKey where
  /-- There is nothing else it could be. -/
  required : Bool
  /-- Number of tokens before it. -/
  position : Nat
  line : Nat
  column : Nat
  offset : Nat

/-- A text read up to some place. -/
structure Layout where
  cursor : Cursor
  tokens : Array Token
  /-- The column of the innermost block, none outside all blocks. -/
  indent : Option Nat
  /-- The columns of the blocks around it, the innermost first. -/
  outer : List (Option Nat)
  /-- A node at this place may be a key without a mark. -/
  keyAllowed : Bool
  possible : Option PossibleKey
  /-- What may still be a key around each open flow collection, the innermost first. -/
  suspended : List (Option PossibleKey)

namespace Layout

def start (cs : List Char) : Layout :=
  ⟨.start cs, #[], none, [], true, none, []⟩

def inFlow (s : Layout) : Bool := !s.suspended.isEmpty

def push (s : Layout) (token : Token) : Layout :=
  { s with tokens := s.tokens.push token }

/-- With a token put in front of those from a position on. -/
def insert (s : Layout) (position : Nat) (token : Token) : Layout :=
  { s with tokens := s.tokens.extract 0 position ++ #[token] ++
      s.tokens.extract position s.tokens.size }

def withCursor (s : Layout) (c : Cursor) : Layout := { s with cursor := c }

def take (s : Layout) (n : Nat) (token : Token) : Layout :=
  (s.withCursor (s.cursor.skip n)).push token

/-- What could be a key turns out not to be one. -/
def dropKey (s : Layout) : Option Layout :=
  match s.possible with
  | some key => if key.required then none else some { s with possible := none }
  | none => some s

/-- The node that begins here may be a key. -/
def noteKey (s : Layout) : Option Layout :=
  if s.keyAllowed then do
    let required := !s.inFlow && s.indent == some s.cursor.column
    let c := s.cursor
    let s ← s.dropKey
    return { s with possible := some ⟨required, s.tokens.size, c.line, c.column, c.offset⟩ }
  else some s

/-- A deeper column than that of the innermost block. -/
def isDeeper (s : Layout) (column : Nat) : Bool :=
  s.indent.all (· < column)

/-- Opens a block at a column if it is deeper, with its mark in front of the tokens from a
position on. -/
def openBlock (s : Layout) (column position : Nat) (token : Token) : Layout :=
  if !s.inFlow && s.isDeeper column then
    { s.insert position token with indent := some column, outer := s.indent :: s.outer }
  else s

/-- Closes the blocks, the innermost first, whose columns are not within `column`; with none for
it, closes all. -/
def closeBlocks (column : Option Nat) (s : Layout) : List (Option Nat) → Layout
  | [] => s
  | enclosing :: outer =>
    match s.indent with
    | none => s
    | some n =>
      if column.all (· < n) then
        closeBlocks column { s.push .blockEnd with indent := enclosing, outer } outer
      else s

/-- Closes what a column, or the end of a document, closes. -/
def unwind (s : Layout) (column : Option Nat) : Layout :=
  if s.inFlow then s else s.closeBlocks column s.outer

/-- Past gaps, comments, line breaks and the byte order marks that begin lines. Tabs count as gaps
only where no key may begin. -/
def skipGaps (inFlow : Bool) : Nat → Bool → Cursor → Bool × Cursor
  | 0, keyAllowed, c => (keyAllowed, c)
  | fuel + 1, keyAllowed, c =>
    let c := if c.atByteOrderMark then c.skip 1 else c
    let c := c.skipWhile fun ch => ch == ' ' || ((inFlow || !keyAllowed) && ch == '\t')
    let c := if c.peek == some '#' then c.skipWhile fun ch => !isBreak ch else c
    match c.lineBreak? with
    | some (_, c) => skipGaps inFlow fuel (keyAllowed || !inFlow) c
    | none => (keyAllowed, c)

/-- At the next token. -/
def toToken (s : Layout) : Layout :=
  let (keyAllowed, c) := skipGaps s.inFlow (s.cursor.rest.length + 1) s.keyAllowed s.cursor
  { s with keyAllowed, cursor := c }

def documentMark (s : Layout) (token : Token) : Option Layout := do
  let s ← (s.unwind none).dropKey
  return { s with keyAllowed := false }.take 3 token

def directive (s : Layout) : Option Layout := do
  let s ← (s.unwind none).dropKey
  let (token, c) ← Property.readDirective s.cursor
  return { s with keyAllowed := false, cursor := c }.push token

def openFlow (s : Layout) (token : Token) : Option Layout := do
  let s ← s.noteKey
  return { s with
    suspended := s.possible :: s.suspended
    possible := none
    keyAllowed := true }.take 1 token

def closeFlow (s : Layout) (token : Token) : Option Layout := do
  let s ← s.dropKey
  let s := match s.suspended with
    | [] => s
    | possible :: suspended => { s with possible, suspended }
  return { s with keyAllowed := false }.take 1 token

def comma (s : Layout) : Option Layout := do
  let s ← s.dropKey
  return { s with keyAllowed := true }.take 1 .comma

def entry (s : Layout) : Option Layout := do
  guard (s.inFlow || s.keyAllowed)
  let s ← (s.openBlock s.cursor.column s.tokens.size .blockSequence).dropKey
  return { s with keyAllowed := true }.take 1 .entry

def keyMark (s : Layout) : Option Layout := do
  guard (s.inFlow || s.keyAllowed)
  let s ← (s.openBlock s.cursor.column s.tokens.size .blockMapping).dropKey
  return { s with keyAllowed := !s.inFlow }.take 1 .key

/-- Most bytes from the beginning of a key without a mark to its colon. -/
def keyReach : Nat := 1024

/-- The node kept as a possible key, if it still may be one. -/
def keyInReach (s : Layout) : Option PossibleKey :=
  s.possible.filter fun key =>
    key.line == s.cursor.line && s.cursor.offset ≤ key.offset + keyReach

def valueMark (s : Layout) : Option Layout :=
  match s.keyInReach with
  | some key =>
    let s := (s.insert key.position .key).openBlock key.column key.position .blockMapping
    some ({ s with possible := none, keyAllowed := false }.take 1 .value)
  | none => do
    guard (!s.possible.any PossibleKey.required)
    guard (s.inFlow || s.keyAllowed)
    let s := s.openBlock s.cursor.column s.tokens.size .blockMapping
    return { s with possible := none, keyAllowed := !s.inFlow }.take 1 .value

/-- A node that begins with a property or is an alias. -/
def property (s : Layout) (read : Cursor → Option (Token × Cursor)) : Option Layout := do
  let s ← s.noteKey
  let (token, c) ← read s.cursor
  return { s with keyAllowed := false, cursor := c }.push token

def blockScalar (s : Layout) (folded : Bool) : Option Layout := do
  let s ← s.dropKey
  let (text, c) ← Block.read folded s.indent s.cursor
  return { s with keyAllowed := true, cursor := c }.push (.scalar (String.ofList text) false)

def quotedScalar (s : Layout) (single : Bool) : Option Layout := do
  let s ← s.noteKey
  let (text, c) ← Quoted.read single s.cursor
  return { s with keyAllowed := false, cursor := c }.push (.scalar (String.ofList text) false)

/-- A plain scalar. Behind one that a line ends, the next node may be a key. -/
def plainScalar (s : Layout) : Option Layout := do
  let s ← s.noteKey
  let minColumn := (s.indent.map (· + 1)).getD 0
  let (text, lineEnded, c) ← Plain.read s.inFlow minColumn s.cursor
  return { s with keyAllowed := lineEnded, cursor := c }.push (.scalar (String.ofList text) true)

/-- A character that a plain scalar does not begin with. -/
def isIndicator (c : Char) : Bool :=
  endsWord (some c) || "-?:,[]\x7b\x7d#&*!|>'\"%@`".toList.contains c

/-- A plain scalar may begin here. -/
def beginsPlain (s : Layout) (c : Char) : Bool :=
  let following := s.cursor.ahead 1
  !isIndicator c || (c == '-' && !following.any isGap) ||
    (!s.inFlow && (c == '?' || c == ':') && !endsWord following)

def token (s : Layout) (c : Char) : Option Layout :=
  let spaced := endsWord (s.cursor.ahead 1)
  if c == '%' && s.cursor.column == 0 then s.directive
  else if s.cursor.atMarker '-' then s.documentMark .documentStart
  else if s.cursor.atMarker '.' then s.documentMark .documentEnd
  else if c == '[' then s.openFlow .flowSequence
  else if c == '{' then s.openFlow .flowMapping
  else if c == ']' then s.closeFlow .flowSequenceEnd
  else if c == '}' then s.closeFlow .flowMappingEnd
  else if c == ',' then s.comma
  else if c == '-' && spaced then s.entry
  else if c == '?' && (s.inFlow || spaced) then s.keyMark
  else if c == ':' && (s.inFlow || spaced) then s.valueMark
  else if c == '*' then s.property fun c => (Property.readName c).map fun (n, c) => (.alias n, c)
  else if c == '&' then s.property fun c => (Property.readName c).map fun (n, c) => (.anchor n, c)
  else if c == '!' then s.property (Property.readTag s.inFlow)
  else if c == '|' && !s.inFlow then s.blockScalar false
  else if c == '>' && !s.inFlow then s.blockScalar true
  else if c == '\'' then s.quotedScalar true
  else if c == '"' then s.quotedScalar false
  else if s.beginsPlain c then s.plainScalar
  else none

/-- All tokens of a text, each taking at least one character. -/
def run : Nat → Layout → Option (List Token)
  | 0, _ => none
  | fuel + 1, s =>
    let s := s.toToken
    match s.cursor.peek with
    | none => do
      let s ← (s.unwind none).dropKey
      return s.tokens.toList
    | some c => do
      let s ← (s.unwind (some s.cursor.column)).token c
      run fuel s

end Layout

/-- The tokens of a text. A text with a character that may not stand in it has none. -/
def tokens? (cs : List Char) : Option (List Token) :=
  if cs.all isAllowed then Layout.run (cs.length + 1) (.start cs) else none

end EventContract.Yaml
