import EventContract.Json.Reader
import EventContract.Number.Decimal
import EventContract.Toml.Basic
/-!
# Scalars of TOML

Strings, numbers, dates and times. Every reader gives what it read and what follows, or nothing.
-/

namespace EventContract.Toml

def isGap (c : Char) : Bool := c == ' ' || c == '\t'

def skipGaps (cs : List Char) : List Char := cs.dropWhile isGap

def isBeyondAscii (c : Char) : Bool := 0x80 ≤ c.toNat

/-- A character that comments and strings may hold: a tab, or no control character. -/
def isTextChar (c : Char) : Bool :=
  c == '\t' || (0x20 ≤ c.toNat && c.toNat ≤ 0x7E) || isBeyondAscii c

def newline? : List Char → Option (List Char)
  | '\n' :: rest => some rest
  | '\r' :: '\n' :: rest => some rest
  | _ => none

def hexNumber? (digits : List Char) : Option Nat :=
  digits.foldlM (fun n d => (Json.Quoted.hexValue? d).map (n * 16 + ·)) 0

/-- The character of given hexadecimal digits, and what follows them. -/
def codePoint? (count : Nat) (cs : List Char) : Option (Char × List Char) := do
  let digits := cs.take count
  guard (digits.length == count)
  let code ← hexNumber? digits
  guard code.isValidChar
  return (Char.ofNat code, cs.drop count)

/-- The character of an escape, behind its backslash, and what follows it. -/
def escape? : List Char → Option (Char × List Char)
  | 'b' :: rest => some ('\x08', rest)
  | 't' :: rest => some ('\t', rest)
  | 'n' :: rest => some ('\n', rest)
  | 'f' :: rest => some ('\x0c', rest)
  | 'r' :: rest => some ('\r', rest)
  | '"' :: rest => some ('"', rest)
  | '\\' :: rest => some ('\\', rest)
  | 'u' :: rest => codePoint? 4 rest
  | 'U' :: rest => codePoint? 8 rest
  | _ => none

/-- A string on one line, behind its opening quote. -/
def readBasic : Nat → List Char → Option (List Char × List Char)
  | 0, _ => none
  | fuel + 1, cs =>
    match cs with
    | [] => none
    | '"' :: rest => some ([], rest)
    | '\\' :: rest => do
      let (c, rest) ← escape? rest
      (readBasic fuel rest).map fun (text, rest) => (c :: text, rest)
    | c :: rest =>
      if isTextChar c then (readBasic fuel rest).map fun (text, rest) => (c :: text, rest)
      else none

/-- A string on one line without escapes, behind its opening quote. -/
def readLiteral (cs : List Char) : Option (List Char × List Char) :=
  let text := cs.takeWhile fun c => isTextChar c && c != '\''
  match cs.drop text.length with
  | '\'' :: rest => some (text, rest)
  | _ => none

/-- What follows a backslash at the end of a line: the line break, and all gaps and breaks behind
it. -/
def skipEscapedBreak (cs : List Char) : Option (List Char) :=
  (newline? (skipGaps cs)).map fun rest => skipAll rest.length rest
where
  /-- Past gaps and breaks. -/
  skipAll : Nat → List Char → List Char
  | 0, cs => cs
  | fuel + 1, cs =>
    match newline? (skipGaps cs) with
    | some rest => skipAll fuel rest
    | none => skipGaps cs

/-- Quotes in a string of several lines: up to two are text, and of three or more the last three,
of five at most, close the string. Gives the quotes that are text, whether the string is closed, and
what follows. -/
def takeQuotes (quote : Char) (cs : List Char) : List Char × Bool × List Char :=
  let n := min 5 (cs.takeWhile (· == quote)).length
  if n < 3 then (List.replicate n quote, false, cs.drop n)
  else (List.replicate (n - 3) quote, true, cs.drop n)

/-- A string of several lines, behind its opening quotes and the break after them. Only in one
between double quotes a backslash is an escape. -/
def readLines (quote : Char) : Nat → List Char → Option (List Char × List Char)
  | 0, _ => none
  | fuel + 1, cs =>
    match cs with
    | [] => none
    | c :: rest =>
      if c == quote then
        let (quotes, closed, rest) := takeQuotes quote cs
        if closed then some (quotes, rest)
        else (readLines quote fuel rest).map fun (text, rest) => (quotes ++ text, rest)
      else if c == '\\' && quote == '"' then
        match skipEscapedBreak rest with
        | some rest => readLines quote fuel rest
        | none => do
          let (c, rest) ← escape? rest
          (readLines quote fuel rest).map fun (text, rest) => (c :: text, rest)
      else match newline? cs with
        | some rest => (readLines quote fuel rest).map fun (text, rest) => ('\n' :: text, rest)
        | none =>
          if isTextChar c then
            (readLines quote fuel rest).map fun (text, rest) => (c :: text, rest)
          else none

def readString (cs : List Char) : Option (String × List Char) :=
  let done : List Char × List Char → String × List Char := fun (text, rest) =>
    (String.ofList text, rest)
  match cs with
  | '"' :: '"' :: '"' :: rest =>
    (readLines '"' (rest.length + 1) ((newline? rest).getD rest)).map done
  | '\'' :: '\'' :: '\'' :: rest =>
    (readLines '\'' (rest.length + 1) ((newline? rest).getD rest)).map done
  | '"' :: rest => (readBasic (rest.length + 1) rest).map done
  | '\'' :: rest => (readLiteral rest).map done
  | _ => none

/-- Digits, with single underscores between them. -/
def readDigits (isDigit : Char → Bool) : Nat → List Char → Option (List Char × List Char)
  | 0, _ => none
  | fuel + 1, cs =>
    match cs with
    | d :: rest =>
      if !isDigit d then none
      else match rest with
        | '_' :: more => (readDigits isDigit fuel more).map fun (ds, rest) => (d :: ds, rest)
        | e :: _ =>
          if isDigit e then (readDigits isDigit fuel rest).map fun (ds, rest) => (d :: ds, rest)
          else some ([d], rest)
        | [] => some ([d], [])
    | [] => none

def readBase (base : Nat) (cs : List Char) : Option (Nat × List Char) := do
  let isDigit (c : Char) : Bool := (Json.Quoted.hexValue? c).any (· < base)
  let (digits, rest) ← readDigits isDigit (cs.length + 1) cs
  let n := digits.foldl (fun n d => n * base + (Json.Quoted.hexValue? d).getD 0) 0
  return (n, rest)

def readSign : List Char → Bool × List Char
  | '-' :: rest => (true, rest)
  | '+' :: rest => (false, rest)
  | cs => (false, cs)

/-- Decimal digits, of which only a single one may be a leading zero. -/
def readWhole (cs : List Char) : Option (List Char × List Char) :=
  match cs with
  | '0' :: rest => some (['0'], rest)
  | _ => readDigits Json.isDigit (cs.length + 1) cs

/-- An integer of 64 bits. -/
def inRange (n : Int) : Option Int :=
  if -(Int.pow 2 63) ≤ n && n < Int.pow 2 63 then some n else none

def readInteger (cs : List Char) : Option (Int × List Char) := do
  let (n, rest) ← match cs with
    | '0' :: 'x' :: rest => (readBase 16 rest).map fun (n, rest) => ((n : Int), rest)
    | '0' :: 'o' :: rest => (readBase 8 rest).map fun (n, rest) => ((n : Int), rest)
    | '0' :: 'b' :: rest => (readBase 2 rest).map fun (n, rest) => ((n : Int), rest)
    | _ => do
      let (negative, rest) := readSign cs
      let (digits, rest) ← readWhole rest
      let n : Int := Json.digitsValue digits
      pure (if negative then -n else n, rest)
  return (← inRange n, rest)

def readExponent (cs : List Char) : Option (Int × List Char) := do
  let (negative, rest) := readSign cs
  let (digits, rest) ← readDigits Json.isDigit (rest.length + 1) rest
  let n : Int := Json.digitsValue digits
  return (if negative then -n else n, rest)

def readPower : List Char → Option (Int × List Char)
  | 'e' :: rest => readExponent rest
  | 'E' :: rest => readExponent rest
  | cs => some (0, cs)

/-- What follows a number with a fraction, an exponent or both. A positive one has to be finite. -/
def readFloat (cs : List Char) : Option (List Char) := do
  let (negative, rest) := readSign cs
  match rest with
  | 'i' :: 'n' :: 'f' :: rest => return rest
  | 'n' :: 'a' :: 'n' :: rest => return rest
  | _ =>
    let (whole, rest) ← readWhole rest
    let (fraction, rest) ← match rest with
      | '.' :: rest => readDigits Json.isDigit (rest.length + 1) rest
      | 'e' :: _ => some ([], rest)
      | 'E' :: _ => some ([], rest)
      | _ => none
    let (power, rest) ← readPower rest
    let d : Decimal := ⟨negative, Json.digitsValue (whole ++ fraction), power - fraction.length⟩
    guard (negative || d.toDouble?.isSome)
    return rest

/-- A number of exactly so many digits. -/
def readFixed (count : Nat) (cs : List Char) : Option (Nat × List Char) :=
  let digits := cs.take count
  if digits.length == count && digits.all Json.isDigit then
    some (Json.digitsValue digits, cs.drop count)
  else none

def daysIn (year month : Nat) : Nat :=
  if month = 2 then
    if year % 4 = 0 && (year % 100 ≠ 0 || year % 400 = 0) then 29 else 28
  else if month = 4 || month = 6 || month = 9 || month = 11 then 30
  else 31

/-- What follows a fixed character. -/
def expect (c : Char) : List Char → Option (List Char)
  | d :: rest => if c = d then some rest else none
  | [] => none

def readDate (cs : List Char) : Option (List Char) := do
  let (year, rest) ← readFixed 4 cs
  let (month, rest) ← readFixed 2 (← expect '-' rest)
  let (day, rest) ← readFixed 2 (← expect '-' rest)
  guard (1 ≤ month && month ≤ 12 && 1 ≤ day && day ≤ daysIn year month)
  return rest

def readClock (cs : List Char) : Option (List Char) := do
  let (hour, rest) ← readFixed 2 cs
  let (minute, rest) ← readFixed 2 (← expect ':' rest)
  guard (hour ≤ 23 && minute ≤ 59)
  return rest

def readTime (cs : List Char) : Option (List Char) := do
  let rest ← readClock cs
  let (second, rest) ← readFixed 2 (← expect ':' rest)
  guard (second ≤ 60)
  match rest with
  | '.' :: more =>
    let digits := more.takeWhile Json.isDigit
    if digits.isEmpty then return rest else return more.drop digits.length
  | _ => return rest

/-- What follows an offset from universal time, if there is one. -/
def skipOffset (cs : List Char) : List Char :=
  match cs with
  | 'Z' :: rest => rest
  | 'z' :: rest => rest
  | '+' :: rest => (readClock rest).getD cs
  | '-' :: rest => (readClock rest).getD cs
  | _ => cs

/-- What follows the time behind a date, if there is one. -/
def skipTime (cs : List Char) : List Char :=
  match cs with
  | c :: rest =>
    if c == 'T' || c == 't' || c == ' ' then ((readTime rest).map skipOffset).getD cs else cs
  | [] => []

def readMoment (cs : List Char) : Option (List Char) :=
  match readDate cs with
  | some rest => some (skipTime rest)
  | none => readTime cs

def readNumber (cs : List Char) : Option (Value × List Char) :=
  match readMoment cs with
  | some rest => some (.moment, rest)
  | none =>
    match readFloat cs with
    | some rest => some (.float, rest)
    | none => (readInteger cs).map fun (n, rest) => (.integer n, rest)

end EventContract.Toml
