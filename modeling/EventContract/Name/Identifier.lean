/-!
# Identifiers

The identifiers of ASCII that C++ and TypeScript share: letters, digits and underscores, not
beginning with a digit. A text becomes one by replacing what may not stand in it and guarding its
front with an underscore.
-/

namespace EventContract.Name

def isAlphanumeric (c : Char) : Bool :=
  c.isAlphanum

def isIdentifierChar (c : Char) : Bool :=
  c == '_' || isAlphanumeric c

def isIdentifierChars : List Char → Bool
  | [] => false
  | c :: rest => isIdentifierChar c && !c.isDigit && rest.all isIdentifierChar

def isIdentifier (text : String) : Bool :=
  isIdentifierChars text.toList

/-- An underscore in front of what is empty or begins with a digit. -/
def guardFront : List Char → List Char
  | [] => ['_']
  | c :: rest => if c.isDigit then '_' :: c :: rest else c :: rest

/-- Guarded characters of an identifier form an identifier. -/
theorem isIdentifierChars_guardFront {cs : List Char} (h : cs.all isIdentifierChar = true) :
    isIdentifierChars (guardFront cs) = true := by
  cases cs with
  | nil => decide
  | cons c rest =>
    by_cases hc : c.isDigit
    · simpa [guardFront, hc, isIdentifierChars, show isIdentifierChar '_' = true by decide,
        show '_'.isDigit = false by decide] using h
    · simpa [guardFront, hc, isIdentifierChars] using h

end EventContract.Name
