import EventContract.Json.Basic
import EventContract.Json.Quoted
/-!
# Reading JSON

The grammar of RFC 8259 and nothing beside it: no byte order mark, no comments, no trailing comma.
A value may be nested only so deep, and of members with one key the last value counts, at the place
of the first.

A number that is no integer of 64 bits is reckoned in double precision: its leading digits, as many
as fit into 64 bits, are rounded, and multiplied or divided by a power of ten with further rounding.
It has to be finite at each step, and may be off the number that is nearest to what is written.

The readers work on the characters that are left: each gives its result together with what follows
it. Fuel bounds the number of nested calls, and `read` gives enough for any text.
-/

namespace EventContract.Json

/-- What follows the spacing. -/
def skipSpacing (cs : List Char) : List Char :=
  cs.dropWhile isSpacing

/-- What follows a fixed word. -/
def dropWord? : List Char → List Char → Option (List Char)
  | [], cs => some cs
  | w :: word, c :: cs => if w = c then dropWord? word cs else none
  | _ :: _, [] => none

/-- A decimal digit of ASCII. -/
def isDigit (c : Char) : Bool :=
  '0' ≤ c && c ≤ '9'

/-- The number that decimal digits write. -/
def digitsValue (ds : List Char) : Nat :=
  ds.foldl (fun n d => n * 10 + (d.toNat - '0'.toNat)) 0

/-- The digits at the front, and what follows them. -/
def spanDigits (cs : List Char) : List Char × List Char :=
  (cs.takeWhile isDigit, cs.dropWhile isDigit)

/-- The integer part of a number: a zero alone, or digits that begin with another one. -/
def readInteger (cs : List Char) : Option (List Char × List Char) :=
  match spanDigits cs with
  | ([], _) => none
  | ('0' :: _ :: _, _) => none
  | (digits, rest) => some (digits, rest)

/-- The digits after a point, none if there is no point. -/
def readFraction (cs : List Char) : Option (List Char × List Char) :=
  match cs with
  | '.' :: rest =>
    match spanDigits rest with
    | ([], _) => none
    | (digits, rest) => some (digits, rest)
  | _ => some ([], cs)

/-- The digits of an exponent. -/
def readExponentDigits (negative : Bool) (cs : List Char) : Option (Option Int × List Char) :=
  match spanDigits cs with
  | ([], _) => none
  | (digits, rest) =>
    let n : Int := digitsValue digits
    some (some (if negative then -n else n), rest)

/-- The power of ten after an `e`, if there is one. -/
def readExponent (cs : List Char) : Option (Option Int × List Char) :=
  match cs with
  | c :: rest =>
    if c = 'e' || c = 'E' then
      match rest with
      | '+' :: rest => readExponentDigits false rest
      | '-' :: rest => readExponentDigits true rest
      | rest => readExponentDigits false rest
    else some (none, cs)
  | [] => some (none, [])

/-- The digits of a number that still count behind those of `significand`: as long as the whole
number fits into 64 bits. Gives the number and the digits that are left. -/
def takeSignificant (significand : Nat) : List Char → Nat × List Char
  | [] => (significand, [])
  | d :: digits =>
    let longer := significand * 10 + (d.toNat - '0'.toNat)
    if longer < UInt64.size then takeSignificant longer digits else (significand, d :: digits)

/-- The number of double precision with the given digits in front of and behind the point. Digits
that do not count only move the point. -/
def double? (negative : Bool) (whole fraction : List Char) (power : Int) : Option Double := do
  let (significand, dropped) := takeSignificant 0 whole
  let (significand, unused) := takeSignificant significand fraction
  let behindPoint : Int := fraction.length - unused.length
  let x ← Double.nearest? false significand 1
  let x ← x.scale? (dropped.length - behindPoint + power)
  return { x with negative }

/-- The integer of 64 bits that digits write, if it is one. -/
def word? (negative : Bool) (digits : List Char) : Option Int :=
  let n := digitsValue digits
  if negative then
    if 0 < n && n ≤ Nat.pow 2 63 then some (-(n : Int)) else none
  else if n < UInt64.size then some n else none

/-- The number with the given digits and power, which are none for a part that is not written. -/
def number? (negative : Bool) (whole fraction : List Char) (power : Option Int) : Option Number :=
  let integer := if fraction.isEmpty && power.isNone then word? negative whole else none
  match integer with
  | some n => some (.integer n)
  | none => (double? negative whole fraction (power.getD 0)).map .double

/-- A number without its sign. -/
def readMagnitude (negative : Bool) (cs : List Char) : Option (Number × List Char) := do
  let (whole, rest) ← readInteger cs
  let (fraction, rest) ← readFraction rest
  let (power, rest) ← readExponent rest
  let number ← number? negative whole fraction power
  return (number, rest)

/-- A number. -/
def readNumber (cs : List Char) : Option (Number × List Char) :=
  match cs with
  | '-' :: rest => readMagnitude true rest
  | _ => readMagnitude false cs

mutual

/-- The value at the front; at most `depth` arrays and objects may be open around a scalar in
it. -/
def readValue : Nat → Nat → List Char → Option (Json × List Char)
  | 0, _, _ => none
  | fuel + 1, depth, cs =>
    match skipSpacing cs with
    | [] => none
    | '"' :: rest =>
      (Quoted.decode rest).map fun (text, rest) => (.string (String.ofList text), rest)
    | '[' :: rest =>
      match depth with
      | 0 => none
      | depth + 1 =>
        match skipSpacing rest with
        | ']' :: rest => some (.array [], rest)
        | rest => (readItems fuel depth rest).map fun (items, rest) => (.array items, rest)
    | '\x7b' :: rest =>
      match depth with
      | 0 => none
      | depth + 1 =>
        match skipSpacing rest with
        | '\x7d' :: rest => some (.object [], rest)
        | rest => (readMembers fuel depth rest).map fun (members, rest) =>
            (.object (Table.ofPairs members), rest)
    | 't' :: rest => (dropWord? ['r', 'u', 'e'] rest).map fun rest => (.bool true, rest)
    | 'f' :: rest => (dropWord? ['a', 'l', 's', 'e'] rest).map fun rest => (.bool false, rest)
    | 'n' :: rest => (dropWord? ['u', 'l', 'l'] rest).map fun rest => (.null, rest)
    | c :: rest => (readNumber (c :: rest)).map fun (n, rest) => (.number n, rest)

/-- The items of an array from the first one up to the closing bracket. -/
def readItems : Nat → Nat → List Char → Option (List Json × List Char)
  | 0, _, _ => none
  | fuel + 1, depth, cs => do
    let (item, rest) ← readValue fuel depth cs
    match skipSpacing rest with
    | ',' :: rest => (readItems fuel depth rest).map fun (items, rest) => (item :: items, rest)
    | ']' :: rest => some ([item], rest)
    | _ => none

/-- The members of an object from the first one up to the closing brace. -/
def readMembers : Nat → Nat → List Char → Option (List (String × Json) × List Char)
  | 0, _, _ => none
  | fuel + 1, depth, cs =>
    match skipSpacing cs with
    | '"' :: rest => do
      let (key, rest) ← Quoted.decode rest
      match skipSpacing rest with
      | ':' :: rest => do
        let (value, rest) ← readValue fuel depth rest
        let entry := (String.ofList key, value)
        match skipSpacing rest with
        | ',' :: rest =>
          (readMembers fuel depth rest).map fun (members, rest) => (entry :: members, rest)
        | '\x7d' :: rest => some ([entry], rest)
        | _ => none
      | _ => none
    | _ => none

end

/-- The value that a whole text writes, with at most `depth` levels of nesting. -/
def readWithin (depth : Nat) (text : String) : Option Json :=
  let cs := text.toList
  match readValue (2 * cs.length + 2) depth cs with
  | some (value, rest) => if (skipSpacing rest).isEmpty then some value else none
  | none => none

/-- How many arrays and objects of a document may be open at a time. -/
def nestingLimit : Nat := 127

/-- The value that a document's text writes. -/
def read (text : String) : Option Json :=
  readWithin nestingLimit text

end EventContract.Json
