import EventContract.Json.Reader
import EventContract.Number.Decimal
/-!
# What a plain scalar means

A plain scalar without a tag is null, a truth value, an integer, a floating-point number or, if it
is none of these, a text. Integers may be decimal, hexadecimal, octal or binary; digits behind a
leading zero are a text. An integer of more than 64 and at most 128 bits has no meaning, and one
that is longer still counts as a floating-point number if it is decimal.
-/

namespace EventContract.Yaml.PlainValue

def isNull (cs : List Char) : Bool :=
  ["~", "null", "Null", "NULL"].any fun word => word.toList == cs

def bool? (cs : List Char) : Option Bool :=
  if ["true", "True", "TRUE"].any (·.toList == cs) then some true
  else if ["false", "False", "FALSE"].any (·.toList == cs) then some false
  else none

def isSign (c : Char) : Bool := c == '+' || c == '-'

def withoutSign : List Char → List Char
  | c :: rest => if isSign c then rest else c :: rest
  | [] => []

/-- Digits that begin with a zero and are more than the zero, behind a sign or not. -/
def hasLeadingZero (cs : List Char) : Bool :=
  match withoutSign cs with
  | '0' :: d :: rest => (d :: rest).all Json.isDigit
  | _ => false

/-- The value of a digit in a base of at most 16. -/
def digitIn? (base : Nat) (c : Char) : Option Nat :=
  (Json.Quoted.hexValue? c).filter (· < base)

/-- The number that digits write in a base, at least one of them. -/
def natural? (base : Nat) (cs : List Char) : Option Nat :=
  if cs.isEmpty then none
  else cs.foldlM (fun n c => (digitIn? base c).map (n * base + ·)) 0

def baseOf? : List Char → Option (Nat × List Char)
  | '0' :: 'x' :: rest => some (16, rest)
  | '0' :: 'o' :: rest => some (8, rest)
  | '0' :: 'b' :: rest => some (2, rest)
  | _ => none

/-- A number without a minus sign below a bound. -/
def nonNegative? (bound : Nat) (cs : List Char) : Option Nat :=
  let unsigned := match cs with
    | '+' :: rest => rest
    | _ => cs
  let marked := match baseOf? unsigned with
    | some (base, digits) => natural? base digits
    | none => none
  match marked.filter (· < bound) with
  | some n => some n
  | none => if hasLeadingZero cs then none else (natural? 10 unsigned).filter (· < bound)

/-- The magnitude of a number with a minus sign, up to a bound. -/
def negative? (bound : Nat) (cs : List Char) : Option Nat :=
  match cs with
  | '-' :: rest =>
    let marked := match baseOf? rest with
      | some (base, digits) => natural? base digits
      | none => none
    match marked.filter (· ≤ bound) with
    | some n => some n
    | none => if hasLeadingZero cs then none else (natural? 10 rest).filter (· ≤ bound)
  | _ => none

/-- An integer with at most the given number of bits. -/
def integer? (bits : Nat) (cs : List Char) : Option Int :=
  match nonNegative? (Nat.pow 2 bits) cs with
  | some n => some n
  | none => (negative? (Nat.pow 2 (bits - 1)) cs).map fun n => -(n : Int)

/-- The number after the decimal digits and the point of a floating-point number: its exponent. -/
def exponent? : List Char → Option Int
  | [] => some 0
  | c :: rest =>
    if c == 'e' || c == 'E' then
      let (negative, digits) := match rest with
        | '-' :: rest => (true, rest)
        | '+' :: rest => (false, rest)
        | rest => (false, rest)
      (natural? 10 digits).map fun n => if negative then -(n : Int) else n
    else none

/-- A finite number: digits with or without a point among, before or behind them, and an
exponent. -/
def finite? (cs : List Char) : Option Double := do
  let (negative, cs) := match cs with
    | '-' :: rest => (true, rest)
    | '+' :: rest => (false, rest)
    | _ => (false, cs)
  let (whole, rest) := Json.spanDigits cs
  let (fraction, rest) := match rest with
    | '.' :: rest => Json.spanDigits rest
    | _ => ([], rest)
  guard (!(whole.isEmpty && fraction.isEmpty))
  let power ← exponent? rest
  Decimal.toDouble? ⟨negative, Json.digitsValue (whole ++ fraction), power - fraction.length⟩

/-- A word for infinity or for what is not a number. -/
def isSpecialFloat (cs : List Char) : Bool :=
  [".inf", ".Inf", ".INF", "+.inf", "+.Inf", "+.INF", "-.inf", "-.Inf", "-.INF", ".nan", ".NaN",
    ".NAN"].any (·.toList == cs)

/-- A floating-point number; one that is not finite has no value of its own. -/
def float? (cs : List Char) : Option Json :=
  let double (x : Double) : Json := .number (.double x)
  if isSpecialFloat cs then some .null
  else match cs with
    | '+' :: c :: rest => if isSign c then none else (finite? (c :: rest)).map double
    | _ => (finite? cs).map double

/-- The value of an integer, or nothing if it is not one. The outer option tells an integer from
other scalars, the inner one whether it has a value. -/
def integerValue? (cs : List Char) : Option (Option Json) :=
  match integer? 64 cs with
  | some n => some (some (.number (.integer n)))
  | none => (integer? 128 cs).map fun _ => none

def value? (text : String) : Option Json :=
  let cs := text.toList
  if cs.isEmpty || isNull cs then some .null
  else match bool? cs with
    | some b => some (.bool b)
    | none =>
      match integerValue? cs with
      | some value => value
      | none =>
        match if hasLeadingZero cs then none else float? cs with
        | some value => some value
        | none => some (.string text)

end EventContract.Yaml.PlainValue
