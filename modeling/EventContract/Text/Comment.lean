import EventContract.Text.Lines
/-!
# Free text in comments

Descriptions go into block comments of both artifacts. The mark that closes such a comment is
broken up, and the text is laid out in lines without blanks at their ends.
-/

namespace EventContract.Text

/-- Every closing mark of a block comment with a space between its two characters. -/
def breakClosing : List Char → List Char
  | '*' :: '/' :: rest => '*' :: ' ' :: '/' :: breakClosing rest
  | c :: rest => c :: breakClosing rest
  | [] => []

/-- The lines of a text in a comment; none if the text is blank. -/
def commentLines (text : String) : List String :=
  let cs := text.toList
  if isAllBlank cs then []
  else (lines (breakClosing cs)).map fun line => String.ofList (trimEnd line)

/-- The text without blanks at its end. -/
def trimmedEnd (text : String) : String :=
  String.ofList (trimEnd text.toList)

/-- What every artifact opens with: the schema it comes from, and a warning. -/
def banner (source : String) : List String :=
  ["// Generated by eventgen from " ++ source ++ ".",
    "// Do not edit; regenerate from the schema instead."]

end EventContract.Text
