import EventContract.Json.Quoted
import Mathlib.Tactic.Common

/-! # Quoted texts read back

Reading undoes quoting for every text, whatever follows the closing quote.
-/

namespace EventContract.Json.Quoted

/-! ## Escapes -/

theorem hexValue?_hexDigit : ∀ n < 16, hexValue? (hexDigit n) = some n := by
  decide

theorem codeUnit?_control {n : Nat} (h : n < 0x20) :
    codeUnit? '0' '0' (hexDigit (n / 16)) (hexDigit (n % 16)) = some n := by
  have hzero : hexValue? '0' = some 0 := hexValue?_hexDigit 0 (by omega)
  have hhigh := hexValue?_hexDigit (n / 16) (by omega)
  have hlow := hexValue?_hexDigit (n % 16) (by omega)
  simp only [codeUnit?, hzero, hhigh, hlow, Option.bind_eq_bind, Option.bind_some, Option.pure_def]
  congr 1
  omega

theorem decode_control {c : Char} (h : c.toNat < 0x20) (tail : List Char) :
    decode ('\\' :: 'u' :: '0' :: '0' :: hexDigit (c.toNat / 16) :: hexDigit (c.toNat % 16) ::
        tail) =
      (decode tail).map fun (cs, rest) => (c :: cs, rest) := by
  -- Control characters lie below the surrogates, so one unit is all there is to read.
  have hhigh : isHighSurrogate c.toNat = false := by
    simp only [isHighSurrogate, Bool.and_eq_false_iff, decide_eq_false_iff_not]
    omega
  have hlow : isLowSurrogate c.toNat = false := by
    simp only [isLowSurrogate, Bool.and_eq_false_iff, decide_eq_false_iff_not]
    omega
  rw [decode, codeUnit?_control h]
  simp [hhigh, hlow, Char.ofNat_toNat]

theorem decode_short {mark c : Char} (hmark : mark ≠ 'u') (hshort : shortEscape? mark = some c)
    (tail : List Char) :
    decode ('\\' :: mark :: tail) = (decode tail).map fun (cs, rest) => (c :: cs, rest) := by
  rw [decode.eq_def]
  split
  next heq => cases heq
  next heq => cases heq
  next heq => exact absurd (List.cons.inj (List.cons.inj heq).2).1 hmark
  next heq =>
    cases heq
    rw [hshort]
  next hother heq =>
    cases heq
    exact absurd rfl (hother mark tail rfl)

theorem decode_plain {c : Char} (hquote : c ≠ '"') (hslash : c ≠ '\\') (h : ¬ c.toNat < 0x20)
    (tail : List Char) :
    decode (c :: tail) = (decode tail).map fun (cs, rest) => (c :: cs, rest) := by
  rw [decode.eq_def]
  split
  next heq => cases heq
  next heq => exact absurd (List.cons.inj heq).1 hquote
  next heq => exact absurd (List.cons.inj heq).1 hslash
  next heq => exact absurd (List.cons.inj heq).1 hslash
  next heq =>
    cases heq
    simp [hslash, h]

/-- One character reads back as itself. -/
theorem decode_encodeChar (c : Char) (tail : List Char) :
    decode (encodeChar c ++ tail) = (decode tail).map fun (cs, rest) => (c :: cs, rest) := by
  unfold encodeChar
  split_ifs with hquote hslash hfeed hreturn htab hback hform hcontrol
  · subst hquote
    exact decode_short (by decide) rfl tail
  · subst hslash
    exact decode_short (by decide) rfl tail
  · subst hfeed
    exact decode_short (by decide) rfl tail
  · subst hreturn
    exact decode_short (by decide) rfl tail
  · subst htab
    exact decode_short (by decide) rfl tail
  · subst hback
    exact decode_short (by decide) rfl tail
  · subst hform
    exact decode_short (by decide) rfl tail
  · exact decode_control hcontrol tail
  · exact decode_plain hquote hslash hcontrol tail

/-! ## Whole texts -/

theorem decode_encoded (cs tail : List Char) :
    decode (cs.flatMap encodeChar ++ '"' :: tail) = some (cs, tail) := by
  induction cs with
  | nil => rfl
  | cons c cs ih =>
      rw [List.flatMap_cons, List.append_assoc, decode_encodeChar, ih]
      rfl

/-- A literal is an opening quote and what decodes to its text. -/
theorem exists_decode_quote (text : String) (tail : List Char) :
    ∃ body, (quote text).toList ++ tail = '"' :: body ∧ decode body = some (text.toList, tail) := by
  refine ⟨text.toList.flatMap encodeChar ++ '"' :: tail, ?_, decode_encoded _ _⟩
  simp [quote, encode]

end EventContract.Json.Quoted
