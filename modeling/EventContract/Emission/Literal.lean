import EventContract.Text.Blank
/-!
# String literals of the emission header

A text becomes a C++ string literal: quotes, backslashes and control characters are escaped, and
everything else stands as it is. A control character without a letter of its own becomes an octal
escape of three digits, which no following digit can prolong.
-/

namespace EventContract.Emission

def octalDigit (n : Nat) : Char :=
  Nat.digitChar (n % 8)

theorem toNat_octalDigit (n : Nat) : (octalDigit n).toNat = 48 + n % 8 := by
  rw [octalDigit, Nat.toNat_digitChar_of_lt_ten (by omega)]

def literalChar (c : Char) : List Char :=
  if c = '"' then ['\\', '"']
  else if c = '\\' then ['\\', '\\']
  else if c = '\n' then ['\\', 'n']
  else if c = '\r' then ['\\', 'r']
  else if c = '\t' then ['\\', 't']
  else if Text.isControl c then
    ['\\', octalDigit (c.toNat / 64), octalDigit (c.toNat / 8), octalDigit c.toNat]
  else [c]

def literalChars (cs : List Char) : List Char :=
  '"' :: (cs.flatMap literalChar ++ ['"'])

/-- The literal of a text. -/
def literal (text : String) : String :=
  String.ofList (literalChars text.toList)

end EventContract.Emission
