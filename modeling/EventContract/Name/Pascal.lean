import EventContract.Name.Identifier
/-!
# Pascal case

Letters and digits of ASCII make up the words of a name, every other character separates them. In
Pascal case the words stand next to each other, each with its first character in upper case and the
rest as written, so that capitals inside a word keep their place.
-/

namespace EventContract.Name

/-- The words of `cs` next to each other; `fresh` says that the next character opens a word. -/
def capitalised (fresh : Bool) : List Char → List Char
  | [] => []
  | c :: rest =>
    if !isAlphanumeric c then capitalised true rest
    else (if fresh then c.toUpper else c) :: capitalised false rest

def pascalChars (cs : List Char) : List Char :=
  guardFront (capitalised true cs)

/-- A name in Pascal case, as an identifier. -/
def pascal (name : String) : String :=
  String.ofList (pascalChars name.toList)

/-- The name of the type that describes an event's payload. -/
def payloadType (event : String) : String :=
  pascal event ++ "Event"

/-- The name of the function that publishes an event. -/
def publisher (event : String) : String :=
  "Emit" ++ pascal event

end EventContract.Name
