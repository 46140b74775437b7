import EventContract.Json.Quoted
import EventContract.Yaml.Cursor
/-!
# The text of scalars

A scalar is plain, in quotes, or a block of lines. Inside plain and quoted ones a run of gaps stays
as it is, while a line break with the gaps around it is folded: a single break is a space, and each
further one stays.

All readers give the text and the cursor behind it, or nothing if the scalar is not well-formed.
Fuel is the length of what is left, which every step of a reader shortens.
-/

namespace EventContract.Yaml

/-- What stands between two words of a scalar: gaps on one line, or breaks. The first break is
missing when it was escaped. -/
inductive Between where
  | gaps (text : List Char)
  | breaks (first : Option Char) (more : List Char)

namespace Between

/-- What it comes to in the text. -/
def text : Between → List Char
  | .gaps text => text
  | .breaks (some '\n') [] => [' ']
  | .breaks (some '\n') more => more
  | .breaks first more => first.toList ++ more

/-- It goes over the end of a line. -/
def isBroken : Between → Bool
  | .gaps _ => false
  | .breaks _ _ => true

/-- Reads gaps and breaks. A tab may not stand left of `minColumn` at the start of a line. -/
def read (minColumn : Nat) : Nat → Between → Cursor → Option (Between × Cursor)
  | 0, between, c => some (between, c)
  | fuel + 1, between, c =>
    match c.peek with
    | none => some (between, c)
    | some ch =>
      if isGap ch then
        match between with
        | .gaps text => read minColumn fuel (.gaps (text ++ [ch])) (c.skip 1)
        | .breaks _ _ =>
          if ch == '\t' && c.column < minColumn then none
          else read minColumn fuel between (c.skip 1)
      else
        match c.lineBreak? with
        | none => some (between, c)
        | some (b, c) =>
          match between with
          | .gaps _ => read minColumn fuel (.breaks (some b) []) c
          | .breaks first more => read minColumn fuel (.breaks first (more ++ [b])) c

end Between

namespace Plain

/-- An indicator that ends a plain scalar inside a flow collection. -/
def isFlowIndicator (c : Char) : Bool :=
  c == ',' || c == '[' || c == ']' || c == '{' || c == '}'

/-- The characters of a word. A colon ends it when a gap follows; inside a flow collection it may
not stand before an indicator. -/
def readWord (inFlow : Bool) : Nat → Cursor → Option (List Char × Cursor)
  | 0, c => some ([], c)
  | fuel + 1, c =>
    match c.peek with
    | none => some ([], c)
    | some ch =>
      let following := c.ahead 1
      if endsWord (some ch) then some ([], c)
      else if inFlow && ch == ':' && following.any fun f => f == '?' || isFlowIndicator f then none
      else if ch == ':' && endsWord following then some ([], c)
      else if inFlow && isFlowIndicator ch then some ([], c)
      else (readWord inFlow fuel (c.skip 1)).map fun (word, c) => (ch :: word, c)

/-- Reads on behind `text`, after which `between` has been read. Gives also whether a line ended
behind the last word. -/
def readFrom (inFlow : Bool) (minColumn : Nat) :
    Nat → List Char → Between → Cursor → Option (List Char × Bool × Cursor)
  | 0, text, between, c => some (text, between.isBroken, c)
  | fuel + 1, text, between, c =>
    if c.atDocumentMarker || c.peek == some '#' then some (text, between.isBroken, c)
    else do
      let (word, c) ← readWord inFlow c.rest.length c
      let (text, between) :=
        if word.isEmpty then (text, between) else (text ++ between.text ++ word, .gaps [])
      if !endsWord c.peek || c.peek.isNone then
        return (text, between.isBroken, c)
      else
        let (between, c) ← Between.read minColumn c.rest.length between c
        if !inFlow && c.column < minColumn then return (text, between.isBroken, c)
        else readFrom inFlow minColumn fuel text between c

/-- A plain scalar, of which the lines after the first are indented to `minColumn` at least. -/
def read (inFlow : Bool) (minColumn : Nat) (c : Cursor) : Option (List Char × Bool × Cursor) :=
  readFrom inFlow minColumn (c.rest.length + 1) [] (.gaps []) c

end Plain

namespace Quoted

/-- The character that a mark after a backslash stands for. -/
def shortEscape? : Char → Option Char
  | '0' => some '\x00'
  | 'a' => some '\x07'
  | 'b' => some '\x08'
  | 't' => some '\t'
  | '\t' => some '\t'
  | 'n' => some '\n'
  | 'v' => some '\x0b'
  | 'f' => some '\x0c'
  | 'r' => some '\r'
  | 'e' => some '\x1b'
  | ' ' => some ' '
  | '"' => some '"'
  | '/' => some '/'
  | '\\' => some '\\'
  | 'N' => some '\u0085'
  | '_' => some '\u00a0'
  | 'L' => some '\u2028'
  | 'P' => some '\u2029'
  | _ => none

/-- Number of hexadecimal digits after the mark of a numeric escape. -/
def digitCount? : Char → Option Nat
  | 'x' => some 2
  | 'u' => some 4
  | 'U' => some 8
  | _ => none

def hexNumber? (digits : List Char) : Option Nat :=
  digits.foldlM (fun n d => (Json.Quoted.hexValue? d).map (n * 16 + ·)) 0

/-- The character of an escape and the number of characters it takes, backslash included. -/
def escape? (c : Cursor) : Option (Char × Nat) := do
  let mark ← c.ahead 1
  match digitCount? mark with
  | none => (shortEscape? mark).map (·, 2)
  | some n =>
    let digits := (c.rest.drop 2).take n
    if digits.length ≠ n then none
    else
      let code ← hexNumber? digits
      if code.isValidChar then return (Char.ofNat code, 2 + n) else none

/-- The characters of a word, and whether an escaped break ends it. -/
def readWord (single : Bool) : Nat → Cursor → Option (List Char × Bool × Cursor)
  | 0, c => some ([], false, c)
  | fuel + 1, c =>
    match c.peek with
    | none => some ([], false, c)
    | some ch =>
      if endsWord (some ch) then some ([], false, c)
      else if single && ch == '\'' && c.ahead 1 == some '\'' then
        (readWord single fuel (c.skip 2)).map fun (word, more) => ('\'' :: word, more)
      else if ch == (if single then '\'' else '"') then some ([], false, c)
      else if !single && ch == '\\' then
        match (c.skip 1).lineBreak? with
        | some (_, c) => some ([], true, c)
        | none => do
          let (x, n) ← escape? c
          (readWord single fuel (c.skip n)).map fun (word, more) => (x :: word, more)
      else (readWord single fuel (c.skip 1)).map fun (word, more) => (ch :: word, more)

/-- Reads on behind `text` up to the closing quote. -/
def readFrom (single : Bool) : Nat → List Char → Cursor → Option (List Char × Cursor)
  | 0, _, _ => none
  | fuel + 1, text, c =>
    if c.atDocumentMarker || c.rest.isEmpty then none
    else do
      let (word, escaped, c) ← readWord single c.rest.length c
      let text := text ++ word
      if c.peek == some (if single then '\'' else '"') then return (text, c.skip 1)
      else
        let opening : Between := if escaped then .breaks none [] else .gaps []
        let (between, c) ← Between.read 0 c.rest.length opening c
        readFrom single fuel (text ++ between.text) c

def read (single : Bool) (c : Cursor) : Option (List Char × Cursor) :=
  readFrom single (c.rest.length + 1) [] (c.skip 1)

end Quoted

namespace Block

/-- What becomes of the breaks at the end of a block scalar. -/
inductive Chomping where
  | strip
  | clip
  | keep
  deriving DecidableEq

def chomping? (c : Cursor) : Option Chomping :=
  match c.peek with
  | some '+' => some .keep
  | some '-' => some .strip
  | _ => none

def indentation? (c : Cursor) : Option Nat :=
  match c.peek with
  | some d => if d.isDigit then some (d.toNat - '0'.toNat) else none
  | none => none

/-- The indicators behind the mark of a block scalar, in either order. An indentation of zero is
refused. -/
def readIndicators (c : Cursor) : Option (Chomping × Option Nat × Cursor) :=
  let (chomping, indentation, c) :=
    match chomping? c with
    | some chomping =>
      let c := c.skip 1
      match indentation? c with
      | some n => (chomping, some n, c.skip 1)
      | none => (chomping, none, c)
    | none =>
      match indentation? c with
      | some n =>
        let c := c.skip 1
        match chomping? c with
        | some chomping => (chomping, some n, c.skip 1)
        | none => (.clip, some n, c)
      | none => (.clip, none, c)
  if indentation = some 0 then none else some (chomping, indentation, c)

/-- The rest of the line of the indicators: gaps, and a comment. -/
def skipHeader (c : Cursor) : Option Cursor :=
  let c := c.skipWhile isGap
  let c := if c.peek == some '#' then c.skipWhile fun ch => !isBreak ch else c
  match c.lineBreak? with
  | some (_, c) => some c
  | none => if c.rest.isEmpty then some c else none

/-- The breaks of empty lines, up to the first line that holds something; `indent` is the
indentation if it is known, and `widest` the widest one seen. A tab may not stand in it. -/
def readBreaks (indent : Option Nat) :
    Nat → Nat → List Char → Cursor → Option (List Char × Nat × Cursor)
  | 0, widest, breaks, c => some (breaks, widest, c)
  | fuel + 1, widest, breaks, c =>
    let within (column : Nat) : Bool := indent.all (column < ·)
    let spaces := (c.rest.takeWhile (· == ' ')).length
    let c := c.skip (indent.elim spaces fun n => min spaces (n - c.column))
    let widest := max widest c.column
    if within c.column && c.peek == some '\t' then none
    else match c.lineBreak? with
      | none => some (breaks, widest, c)
      | some (b, c) => readBreaks indent fuel widest (breaks ++ [b]) c

/-- The lines of a block scalar behind `text`. `first` is the break that ended the line before, if
any, `more` the breaks of empty lines behind it, and `gapBefore` says that that line began with a
gap, which keeps its break from being folded. -/
def readLines (folded : Bool) (indent : Nat) :
    Nat → List Char → Option Char → List Char → Bool → Cursor →
      Option (List Char × Option Char × List Char × Cursor)
  | 0, text, first, more, _, c => some (text, first, more, c)
  | fuel + 1, text, first, more, gapBefore, c =>
    if c.column ≠ indent || c.rest.isEmpty then some (text, first, more, c)
    else do
      let gapHere := c.peek.any isGap
      let ending :=
        if folded && first == some '\n' && !gapBefore && !gapHere then
          if more.isEmpty then [' '] else []
        else first.toList
      let line := c.rest.takeWhile fun ch => !isBreak ch
      let text := text ++ ending ++ more ++ line
      let c := c.skip line.length
      let (first, c) := match c.lineBreak? with
        | some (b, c) => (some b, c)
        | none => (none, c)
      let (more, _, c) ← readBreaks (some indent) (c.rest.length + 1) 0 [] c
      readLines folded indent fuel text first more gapHere c

/-- A block scalar from its mark on, inside a block that is indented to `parent` columns, none at
the outermost level. -/
def read (folded : Bool) (parent : Option Nat) (c : Cursor) : Option (List Char × Cursor) := do
  let (chomping, indentation, c) ← readIndicators (c.skip 1)
  let c ← skipHeader c
  let known := indentation.map fun n => parent.getD 0 + n
  let (more, widest, c) ← readBreaks known (c.rest.length + 1) 0 [] c
  let indent := known.getD (max widest (max ((parent.map (· + 1)).getD 0) 1))
  let (text, first, more, c) ← readLines folded indent (c.rest.length + 1) [] none more false c
  let ending := match chomping with
    | .strip => []
    | .clip => first.toList
    | .keep => first.toList ++ more
  return (text ++ ending, c)

end Block

end EventContract.Yaml
