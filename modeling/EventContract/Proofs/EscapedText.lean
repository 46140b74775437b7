import EventContract.Emission.Literal
import Mathlib

/-! # Escaped texts told apart

The front of what stands between the quotes of a C++ literal tells the first character of its text,
so that no two texts have one literal.
-/

namespace EventContract.Emission

/-- The character that the front of a literal's inside stands for. -/
def firstDenoted : List Char → Option Char
  | '\\' :: '"' :: _ => some '"'
  | '\\' :: '\\' :: _ => some '\\'
  | '\\' :: 'n' :: _ => some '\n'
  | '\\' :: 'r' :: _ => some '\r'
  | '\\' :: 't' :: _ => some '\t'
  | '\\' :: high :: middle :: low :: _ =>
    some (Char.ofNat (64 * (high.toNat - 48) + 8 * (middle.toNat - 48) + (low.toNat - 48)))
  | c :: _ => some c
  | [] => none

theorem firstDenoted_octal {c : Char} (hcontrol : Text.isControl c = true) (tail : List Char) :
    firstDenoted ('\\' :: octalDigit (c.toNat / 64) :: octalDigit (c.toNat / 8) ::
      octalDigit c.toNat :: tail) = some c := by
  have hbound : c.toNat ≤ 0x9F := by
    rw [Text.isControl_iff] at hcontrol
    omega
  have hhigh : c.toNat / 64 = 0 ∨ c.toNat / 64 = 1 ∨ c.toNat / 64 = 2 := by omega
  have hvalue : Char.ofNat (64 * ((octalDigit (c.toNat / 64)).toNat - 48) +
      8 * ((octalDigit (c.toNat / 8)).toNat - 48) + ((octalDigit c.toNat).toNat - 48)) = c := by
    rw [toNat_octalDigit, toNat_octalDigit, toNat_octalDigit]
    conv => rhs; rw [← Char.ofNat_toNat c]
    congr 1
    omega
  -- Which letters the first digit is told from is seen only once the digit is known.
  rcases hhigh with heq | heq | heq
  all_goals
    rw [heq] at hvalue ⊢
    exact congrArg some hvalue

theorem firstDenoted_plain {c : Char} (hslash : c ≠ '\\') (tail : List Char) :
    firstDenoted (c :: tail) = some c := by
  unfold firstDenoted
  split <;> simp_all

theorem firstDenoted_literalChar (c : Char) (tail : List Char) :
    firstDenoted (literalChar c ++ tail) = some c := by
  unfold literalChar
  split_ifs with hquote hslash hfeed hreturn htab hcontrol
  · rw [hquote]
    rfl
  · rw [hslash]
    rfl
  · rw [hfeed]
    rfl
  · rw [hreturn]
    rfl
  · rw [htab]
    rfl
  · exact firstDenoted_octal hcontrol tail
  · exact firstDenoted_plain hslash tail

theorem flatMap_literalChar_injective :
    Function.Injective fun cs : List Char => cs.flatMap literalChar := by
  intro cs ds h
  -- What the front of the inside stands for tells the first characters, and whether there is one.
  induction cs generalizing ds with
  | nil =>
      cases ds with
      | nil => rfl
      | cons d ds =>
          have hfront := congrArg firstDenoted h
          simp only [List.flatMap_nil, List.flatMap_cons, firstDenoted_literalChar] at hfront
          cases hfront
  | cons c cs ih =>
      have hfront := congrArg firstDenoted h
      cases ds with
      | nil =>
          simp only [List.flatMap_nil, List.flatMap_cons, firstDenoted_literalChar] at hfront
          cases hfront
      | cons d ds =>
          simp only [List.flatMap_cons, firstDenoted_literalChar, Option.some.injEq] at hfront h
          subst hfront
          rw [ih (List.append_cancel_left h)]

/-- Different texts have different literals. -/
theorem literal_injective : Function.Injective literal := by
  intro text other h
  have hchars := String.ofList_inj.mp h
  rw [literalChars, literalChars, List.cons.injEq] at hchars
  exact String.toList_inj.mp (flatMap_literalChar_injective (List.append_cancel_right hchars.2))

end EventContract.Emission
