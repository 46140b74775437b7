import EventContract.Json.Quoted
import EventContract.Yaml.Cursor
import EventContract.Yaml.Token
/-!
# Names, tags and directives

The small grammars of YAML beside its scalars: names of anchors and aliases, tags with their
handles, and the directives in front of a document.
-/

namespace EventContract.Yaml.Property

def bytesOf (c : Char) : List UInt8 :=
  (String.singleton c).toUTF8.toList

/-- A character that may follow the name of an anchor or alias. -/
def mayFollowName : Option Char → Bool
  | none => true
  | some c => endsWord (some c) || c == '?' || c == ':' || c == ',' || c == ']' || c == '}' ||
      c == '%' || c == '@' || c == '`'

/-- The name behind the mark of an anchor or alias. -/
def readName (c : Cursor) : Option (String × Cursor) :=
  let c := c.skip 1
  let name := c.rest.takeWhile isNameChar
  let c := c.skip name.length
  if name.isEmpty || !mayFollowName c.peek then none else some (String.ofList name, c)

/-- A character of a tag's name. Only between angle brackets it may be one of flow collections. -/
def isTagChar (verbatim : Bool) (c : Char) : Bool :=
  isNameChar c || c == ';' || c == '/' || c == '?' || c == ':' || c == '@' || c == '&' ||
    c == '=' || c == '+' || c == '$' || c == '.' || c == '%' || c == '!' || c == '~' || c == '*' ||
    c == '\'' || c == '(' || c == ')' || (verbatim && (c == ',' || c == '[' || c == ']'))

/-- The byte of an escape: a percent sign and two hexadecimal digits. -/
def escapedByte? (c : Cursor) : Option UInt8 := do
  guard (c.peek == some '%')
  let high ← (c.ahead 1).bind Json.Quoted.hexValue?
  let low ← (c.ahead 2).bind Json.Quoted.hexValue?
  return UInt8.ofNat (high * 16 + low)

/-- Number of bytes of the character that a byte begins. -/
def byteCount? (first : UInt8) : Option Nat :=
  if first < 0x80 then some 1
  else if 0xC0 ≤ first && first < 0xE0 then some 2
  else if 0xE0 ≤ first && first < 0xF0 then some 3
  else if 0xF0 ≤ first && first < 0xF8 then some 4
  else none

/-- Further escaped bytes of one character. -/
def readTrailing : Nat → Cursor → Option (List UInt8 × Cursor)
  | 0, c => some ([], c)
  | n + 1, c => do
    let b ← escapedByte? c
    if 0x80 ≤ b && b < 0xC0 then
      (readTrailing n (c.skip 3)).map fun (bytes, c) => (b :: bytes, c)
    else none

def readEscape (c : Cursor) : Option (List UInt8 × Cursor) := do
  let first ← escapedByte? c
  let n ← byteCount? first
  (readTrailing (n - 1) (c.skip 3)).map fun (bytes, c) => (first :: bytes, c)

def readTagChars (verbatim : Bool) : Nat → Cursor → Option (Tag × Cursor)
  | 0, c => some ([], c)
  | fuel + 1, c =>
    match c.peek with
    | none => some ([], c)
    | some ch =>
      if !isTagChar verbatim ch then some ([], c)
      else do
        let (bytes, c) ← if ch == '%' then readEscape c else some (bytesOf ch, c.skip 1)
        (readTagChars verbatim fuel c).map fun (more, c) => (bytes ++ more, c)

/-- The part of a tag's name that counts: nothing does from an escaped NUL on. -/
def counting (name : Tag) : Tag :=
  name.takeWhile (· != 0)

/-- The characters of a tag's name, at least one, and of it what counts. -/
def readTagName (verbatim : Bool) (c : Cursor) : Option (Tag × Cursor) :=
  match readTagChars verbatim c.rest.length c with
  | none | some ([], _) => none
  | some (name, c) => some (counting name, c)

/-- A handle: an exclamation mark, name characters, and a second mark if there is one. -/
def readHandle (c : Cursor) : Option (List Char × Cursor) := do
  guard (c.peek == some '!')
  let c := c.skip 1
  let name := c.rest.takeWhile isNameChar
  let c := c.skip name.length
  if c.peek == some '!' then return ('!' :: name ++ ['!'], c.skip 1)
  else return ('!' :: name, c)

/-- A tag in angle brackets, which stands for itself. -/
def readVerbatim (c : Cursor) : Option (Token × Cursor) := do
  let (name, c) ← readTagName true (c.skip 2)
  guard (c.peek == some '>')
  return (.tag [] name, c.skip 1)

/-- A tag with a handle. What looks like a handle without a second mark is the beginning of the
name, and an exclamation mark behind which no name counts is a tag that has no handle. -/
def readShorthand (c : Cursor) : Option (Token × Cursor) := do
  let (handle, c) ← readHandle c
  if 1 < handle.length && handle.getLast? == some '!' then
    let (suffix, c) ← readTagName false c
    return (.tag (handle.flatMap bytesOf) suffix, c)
  else
    let (more, c) ← readTagChars false c.rest.length c
    let suffix := counting ((handle.drop 1).flatMap bytesOf ++ more)
    if suffix.isEmpty then return (.tag [] (tagOf "!"), c)
    else return (.tag (tagOf "!") suffix, c)

/-- A tag, behind which a gap, a break or, inside a flow collection, a comma follows. -/
def readTag (inFlow : Bool) (c : Cursor) : Option (Token × Cursor) := do
  let (token, c) ← if c.ahead 1 == some '<' then readVerbatim c else readShorthand c
  if endsWord c.peek || (inFlow && c.peek == some ',') then return (token, c) else none

/-- A number of a version, of at most nine digits. -/
def readVersionNumber (c : Cursor) : Option (Nat × Cursor) :=
  let digits := c.rest.takeWhile Char.isDigit
  if digits.isEmpty || 9 < digits.length then none
  else some (digits.foldl (fun n d => n * 10 + (d.toNat - '0'.toNat)) 0, c.skip digits.length)

def readVersion (c : Cursor) : Option (Token × Cursor) := do
  let (major, c) ← readVersionNumber (c.skipWhile isGap)
  guard (c.peek == some '.')
  let (minor, c) ← readVersionNumber (c.skip 1)
  return (.version major minor, c)

/-- The handle and what it stands for behind the name of their directive. -/
def readTagHandle (c : Cursor) : Option (Token × Cursor) := do
  let (handle, c) ← readHandle (c.skipWhile isGap)
  guard (handle == ['!'] || (1 < handle.length && handle.getLast? == some '!'))
  guard (c.peek.any isGap)
  let (expansion, c) ← readTagName true (c.skipWhile isGap)
  guard (endsWord c.peek)
  return (.tagHandle (handle.flatMap bytesOf) expansion, c)

/-- The end of a directive's line, with a comment if there is one. -/
def skipLineEnd (c : Cursor) : Option Cursor :=
  let c := c.skipWhile isGap
  let c := if c.peek == some '#' then c.skipWhile fun ch => !isBreak ch else c
  match c.lineBreak? with
  | some (_, c) => some c
  | none => if c.rest.isEmpty then some c else none

def readDirective (c : Cursor) : Option (Token × Cursor) := do
  let c := c.skip 1
  let name := c.rest.takeWhile isNameChar
  let c := c.skip name.length
  guard (endsWord c.peek)
  let (token, c) ←
    if name == ['Y', 'A', 'M', 'L'] then readVersion c
    else if name == ['T', 'A', 'G'] then readTagHandle c
    else none
  let c ← skipLineEnd c
  return (token, c)

end EventContract.Yaml.Property
