/-!
# Quoted strings

A string literal of JSON: `encode` puts a text between double quotes and escapes quotes,
backslashes and the control characters below U+0020; `decode` reads the characters after the
opening quote up to the closing one and gives back what follows.
-/

namespace EventContract.Json.Quoted

/-- A hexadecimal digit, in lower case. -/
def hexDigit (n : Nat) : Char :=
  Nat.digitChar n

/-- One character as it stands inside quotes. -/
def encodeChar (c : Char) : List Char :=
  if c = '"' then ['\\', '"']
  else if c = '\\' then ['\\', '\\']
  else if c = '\n' then ['\\', 'n']
  else if c = '\r' then ['\\', 'r']
  else if c = '\t' then ['\\', 't']
  else if c = '\x08' then ['\\', 'b']
  else if c = '\x0c' then ['\\', 'f']
  else if c.toNat < 0x20 then
    ['\\', 'u', '0', '0', hexDigit (c.toNat / 16), hexDigit (c.toNat % 16)]
  else [c]

/-- The literal of a text, with its quotes. -/
def encode (cs : List Char) : List Char :=
  '"' :: (cs.flatMap encodeChar ++ ['"'])

/-- The literal of a text. -/
def quote (text : String) : String :=
  String.ofList (encode text.toList)

/-- The value of a hexadecimal digit. -/
def hexValue? (c : Char) : Option Nat :=
  if '0' ≤ c && c ≤ '9' then some (c.toNat - '0'.toNat)
  else if 'a' ≤ c && c ≤ 'f' then some (c.toNat - 'a'.toNat + 10)
  else if 'A' ≤ c && c ≤ 'F' then some (c.toNat - 'A'.toNat + 10)
  else none

/-- The UTF-16 code unit that four hexadecimal digits name. -/
def codeUnit? (a b c d : Char) : Option Nat := do
  let a ← hexValue? a
  let b ← hexValue? b
  let c ← hexValue? c
  let d ← hexValue? d
  return ((a * 16 + b) * 16 + c) * 16 + d

/-- The character that a single letter or mark after a backslash stands for. -/
def shortEscape? (c : Char) : Option Char :=
  if c = '"' then some '"'
  else if c = '\\' then some '\\'
  else if c = '/' then some '/'
  else if c = 'b' then some '\x08'
  else if c = 'f' then some '\x0c'
  else if c = 'n' then some '\n'
  else if c = 'r' then some '\r'
  else if c = 't' then some '\t'
  else none

/-- A code unit that opens a pair. -/
def isHighSurrogate (unit : Nat) : Bool :=
  0xD800 ≤ unit && unit < 0xDC00

/-- A code unit that closes a pair. -/
def isLowSurrogate (unit : Nat) : Bool :=
  0xDC00 ≤ unit && unit < 0xE000

/-- The characters up to the closing quote, and what follows it. A control character that is not
escaped, an unknown escape, half a surrogate pair or a missing quote is refused. -/
def decode : List Char → Option (List Char × List Char)
  | [] => none
  | '"' :: rest => some ([], rest)
  | '\\' :: 'u' :: a :: b :: c :: d :: rest =>
    match codeUnit? a b c d with
    | none => none
    | some unit =>
      if isHighSurrogate unit then
        match rest with
        | '\\' :: 'u' :: e :: f :: g :: h :: rest =>
          match codeUnit? e f g h with
          | none => none
          | some low =>
            if isLowSurrogate low then
              (decode rest).map fun (cs, rest) =>
                (Char.ofNat (0x10000 + (unit - 0xD800) * 0x400 + (low - 0xDC00)) :: cs, rest)
            else none
        | _ => none
      else if isLowSurrogate unit then none
      else (decode rest).map fun (cs, rest) => (Char.ofNat unit :: cs, rest)
  | '\\' :: c :: rest =>
    match shortEscape? c with
    | none => none
    | some x => (decode rest).map fun (cs, rest) => (x :: cs, rest)
  | c :: rest =>
    if c = '\\' || c.toNat < 0x20 then none
    else (decode rest).map fun (cs, rest) => (c :: cs, rest)

end EventContract.Json.Quoted
