import EventContract.Text.Blank
/-!
# Lines

A text falls into lines at each line feed; a line feed at the very end closes the last line and
opens no further one. `unlines` is the other direction: every line is closed by a line feed.
-/

namespace EventContract.Text

/-- The lines of a text, without their line feeds. -/
def lines : List Char → List (List Char)
  | [] => []
  | c :: rest =>
    if c = '\n' then [] :: lines rest
    else match lines rest with
      | [] => [[c]]
      | line :: more => (c :: line) :: more

/-- Every line closed by a line feed, one after the other. -/
def unlines (ls : List String) : String :=
  String.join (ls.map fun line => line ++ "\n")

/-- The texts with a separator between each two. -/
def joined (separator : String) (texts : List String) : String :=
  separator.intercalate texts

end EventContract.Text
