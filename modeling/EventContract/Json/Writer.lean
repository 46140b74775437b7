import EventContract.Json.Basic
import EventContract.Json.Quoted
import EventContract.Number.Shortest
import EventContract.Text.Lines
/-!
# Writing JSON

A value has two written forms: `compact` without any blanks, and `pretty` with one member or item
a line, indented by two spaces a level. Both keep the order of members, and an empty array or
object is written without anything between its brackets.
-/

namespace EventContract

namespace Json.Number

/-- The positional notation is for numbers with at most this many digits in front of the point. -/
def digitsBefore : Int := 16

/-- The positional notation is for numbers with fewer zeros than this right behind the point. -/
def zerosBehind : Int := 5

/-- Digits with the decimal point at a position: in positional notation with a digit on both sides
of the point, or else with one digit in front of it and a power of ten. -/
def place (digits : List Char) (point : Int) : List Char :=
  let count : Int := digits.length
  if count ≤ point && point ≤ digitsBefore then
    digits ++ List.replicate (point - count).toNat '0' ++ ['.', '0']
  else if 0 < point && point ≤ digitsBefore then
    digits.take point.toNat ++ '.' :: digits.drop point.toNat
  else if -zerosBehind < point && point ≤ 0 then
    ['0', '.'] ++ List.replicate (-point).toNat '0' ++ digits
  else
    digits.take 1 ++ (if count = 1 then [] else '.' :: digits.drop 1) ++
      'e' :: (toString (point - 1)).toList

/-- The shortest decimal of a number of double precision, always with a point or a power of ten. -/
def doubleText (x : Double) : String :=
  let d := x.shortest
  let digits := Nat.toDigits 10 d.mantissa
  (if x.negative then "-" else "") ++ String.ofList (place digits (digits.length + d.exponent))

/-- A number in the notation of JSON. -/
def text : Number → String
  | .integer value => toString value
  | .double value => doubleText value

end Json.Number

namespace Json

/-- The blanks between the parts of a written value. -/
structure Layout where
  /-- What stands in front of each part at a level, and in front of the bracket that closes it. -/
  lineBreak : Nat → String
  /-- What stands between the colon of a member and its value. -/
  gap : String
  spaced_lineBreak : ∀ level, ∀ c ∈ (lineBreak level).toList, isSpacing c = true
  spaced_gap : ∀ c ∈ gap.toList, isSpacing c = true

namespace Layout

/-- Without any blanks. -/
def compact : Layout where
  lineBreak _ := ""
  gap := ""
  spaced_lineBreak := by simp
  spaced_gap := by simp

/-- A line for each part, indented by two spaces a level. -/
def pretty : Layout where
  lineBreak level := "\n" ++ String.ofList (List.replicate (2 * level) ' ')
  gap := " "
  spaced_lineBreak := by
    intro level c hc
    rw [String.toList_append, List.mem_append] at hc
    rcases hc with hc | hc
    · obtain rfl : c = '\n' := by simpa using hc
      rfl
    · rw [String.toList_ofList] at hc
      obtain rfl := List.eq_of_mem_replicate hc
      rfl
  spaced_gap := by
    intro c hc
    obtain rfl : c = ' ' := by simpa using hc
    rfl

end Layout

/-- Parts between brackets, each one level further in; nothing between the brackets if there are no
parts. -/
def bracketed (layout : Layout) (opening closing : String) (level : Nat) (parts : List String) :
    String :=
  if parts.isEmpty then opening ++ closing
  else opening ++ layout.lineBreak (level + 1) ++
    Text.joined ("," ++ layout.lineBreak (level + 1)) parts ++ layout.lineBreak level ++ closing

mutual

/-- The value in a layout, standing at a level of indentation. -/
def write (layout : Layout) (level : Nat) : Json → String
  | .null => "null"
  | .bool value => if value then "true" else "false"
  | .number value => value.text
  | .string text => Quoted.quote text
  | .array items => bracketed layout "[" "]" level (writeItems layout (level + 1) items)
  | .object members =>
    bracketed layout "\x7b" "\x7d" level (writeMembers layout (level + 1) members)

/-- The items of an array at a level. -/
def writeItems (layout : Layout) (level : Nat) : List Json → List String
  | [] => []
  | item :: rest => write layout level item :: writeItems layout level rest

/-- The members of an object at a level. -/
def writeMembers (layout : Layout) (level : Nat) : List (String × Json) → List String
  | [] => []
  | (key, value) :: rest =>
    (Quoted.quote key ++ ":" ++ layout.gap ++ write layout level value) ::
      writeMembers layout level rest

end

/-- The value without blanks. -/
def compact (value : Json) : String :=
  write .compact 0 value

/-- The value with one member or item a line. -/
def pretty (value : Json) : String :=
  write .pretty 0 value

end Json

end EventContract
