/-!
# Paths as texts

A path is a text in which slashes separate components. Repeated slashes, a slash at the end and
components that are a single dot (but for one at the very front) do not count as components. Nothing
here looks at a disk, and nothing is normalised: joining keeps both texts as they are.
-/

namespace EventContract.Disk.Path

def isAbsolute (path : String) : Bool :=
  path.toList.head? == some '/'

def parts (cs : List Char) : List (List Char) :=
  match cs with
  | [] => [[]]
  | c :: rest =>
    if c = '/' then [] :: parts rest
    else match parts rest with
      | [] => [[c]]
      | part :: more => (c :: part) :: more

/-- A path relative to a base, or itself if it begins at the root. -/
def join (base path : String) : String :=
  if isAbsolute path then path
  else if base.isEmpty || base.toList.getLast? == some '/' then base ++ path
  else base ++ "/" ++ path

/-- Reversed text without the slashes and single dots that end it, where they are no component: a
dot counts only if it is the whole text. -/
def dropIdle : Nat → List Char → List Char
  | 0, cs => cs
  | fuel + 1, cs =>
    match cs with
    | '/' :: rest => dropIdle fuel rest
    | ['.', '/'] => dropIdle fuel ['/']
    | '.' :: '/' :: rest => dropIdle fuel ('/' :: rest)
    | cs => cs

/-- Reversed text in front of and of the last component. -/
def splitLast (path : String) : List Char × List Char :=
  let cs := path.toList.reverse
  let cs := dropIdle cs.length cs
  (cs.dropWhile (· ≠ '/'), cs.takeWhile (· ≠ '/'))

/-- The directory that holds a path; none for the root and for the empty path. -/
def parent? (path : String) : Option String :=
  let (front, last) := splitLast path
  if last.isEmpty then none
  else
    let above := dropIdle front.length front
    if above.isEmpty then some (if front.isEmpty then "" else if isAbsolute path then "/" else "")
    else some (String.ofList above.reverse)

/-- The name of what a path leads to; none for the root and for a path that ends by going up. -/
def fileName? (path : String) : Option String :=
  let last := (splitLast path).2.reverse
  if last.isEmpty || last == ['.', '.'] || last == ['.'] then none
  else some (String.ofList last)

/-- What follows the last dot of a name, unless the name begins with that dot or has none. -/
def extension? (path : String) : Option String := do
  let name ← fileName? path
  let reversed := name.toList.reverse
  let after := reversed.takeWhile (· ≠ '.')
  let before := (reversed.dropWhile (· ≠ '.')).drop 1
  if before.isEmpty then none else some (String.ofList after.reverse)

end EventContract.Disk.Path
