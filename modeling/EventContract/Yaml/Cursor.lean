/-!
# Places in a YAML text

A cursor is the text that is left together with the place it begins at. YAML tells apart gaps
(spaces and tabs) and line breaks, of which there are five; a pair of carriage return and line feed
is one break. Columns count characters, and offsets the bytes of UTF-8.
-/

namespace EventContract.Yaml

def isGap (c : Char) : Bool :=
  c == ' ' || c == '\t'

def isBreak (c : Char) : Bool :=
  c == '\n' || c == '\r' || c == '\u0085' || c == '\u2028' || c == '\u2029'

def endsWord : Option Char → Bool
  | none => true
  | some c => isGap c || isBreak c

def endsLine : Option Char → Bool
  | none => true
  | some c => isBreak c

/-- A character that a text may hold at all. -/
def isAllowed (c : Char) : Bool :=
  let n := c.toNat
  n == 0x09 || n == 0x0A || n == 0x0D || (0x20 ≤ n && n ≤ 0x7E) || n == 0x85 ||
    (0xA0 ≤ n && n ≤ 0xD7FF) || (0xE000 ≤ n && n ≤ 0xFFFD) || 0x10000 ≤ n

/-- A character of names of anchors, directives and tag handles. -/
def isNameChar (c : Char) : Bool :=
  c.isAlphanum || c == '_' || c == '-'

def byteLength (cs : List Char) : Nat :=
  cs.foldl (fun n c => n + c.utf8Size) 0

/-- The text that is left, and where it begins. -/
structure Cursor where
  rest : List Char
  line : Nat
  /-- Number of characters of the line that are read. -/
  column : Nat
  /-- Number of bytes of the line that are read. -/
  offset : Nat

namespace Cursor

def start (cs : List Char) : Cursor := ⟨cs, 0, 0, 0⟩

def peek (c : Cursor) : Option Char := c.rest.head?

def ahead (c : Cursor) (n : Nat) : Option Char := c.rest[n]?

def skip (c : Cursor) (n : Nat) : Cursor :=
  { c with
    rest := c.rest.drop n
    column := c.column + n
    offset := c.offset + byteLength (c.rest.take n) }

/-- Past the characters at the front that satisfy a condition; none of them may be a break. -/
def skipWhile (p : Char → Bool) (c : Cursor) : Cursor :=
  c.skip (c.rest.takeWhile p).length

/-- At the first column of the next line, which begins with `rest`. -/
def nextLine (c : Cursor) (rest : List Char) : Cursor :=
  ⟨rest, c.line + 1, 0, 0⟩

/-- The break at the front, as it counts in a scalar, and what follows. All breaks count as line
feeds but for the two separators of Unicode. -/
def lineBreak? (c : Cursor) : Option (Char × Cursor) :=
  match c.rest with
  | '\r' :: '\n' :: rest => some ('\n', c.nextLine rest)
  | b :: rest =>
    if b == '\u2028' || b == '\u2029' then some (b, c.nextLine rest)
    else if isBreak b then some ('\n', c.nextLine rest)
    else none
  | [] => none

/-- At a byte order mark at the first column of a line. -/
def atByteOrderMark (c : Cursor) : Bool :=
  c.column == 0 && c.peek == some '\ufeff'

/-- Three times the given mark at the first column, and nothing right behind it. -/
def atMarker (c : Cursor) (mark : Char) : Bool :=
  c.column == 0 && c.ahead 0 == some mark && c.ahead 1 == some mark && c.ahead 2 == some mark &&
    endsWord (c.ahead 3)

def atDocumentMarker (c : Cursor) : Bool :=
  c.atMarker '-' || c.atMarker '.'

end Cursor

end EventContract.Yaml
