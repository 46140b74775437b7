import EventContract.Emission.Header
import EventContract.Proofs.EscapedText
import EventContract.Proofs.LiteralText
import Mathlib

/-! # Where a literal ends

A C++ literal ends at the first quote that no backslash takes along. The literals of the header end
there and not before, so that each is found whole in whatever line it stands, and no two texts share
one.
-/

namespace EventContract.Emission

variable {c : Char}

/-! ## Scanning -/

/-- A text up to the first quote that is not escaped, that quote included, and what follows. A
backslash takes the character behind it along. -/
def scanToQuote : List Char → Option (List Char × List Char)
  | [] => none
  | '\\' :: escaped :: rest =>
    (scanToQuote rest).map fun (scanned, rest) => ('\\' :: escaped :: scanned, rest)
  | c :: rest =>
    if c = '"' then some ([c], rest)
    else (scanToQuote rest).map fun (scanned, rest) => (c :: scanned, rest)

/-- The literal that a text begins with, and what follows it. -/
def scanLiteral : List Char → Option (List Char × List Char)
  | [] => none
  | c :: rest =>
    if c = '"' then (scanToQuote rest).map fun (scanned, rest) => (c :: scanned, rest)
    else none

theorem scanToQuote_plain (hquote : c ≠ '"') (hslash : c ≠ '\\') (tail : List Char) :
    scanToQuote (c :: tail) =
      (scanToQuote tail).map fun (scanned, rest) => (c :: scanned, rest) := by
  cases tail with
  | nil => rw [scanToQuote.eq_def]; simp [hquote]
  | cons => rw [scanToQuote.eq_def]; simp [hquote, hslash]

theorem scanToQuote_escaped (c : Char) (tail : List Char) :
    scanToQuote ('\\' :: c :: tail) =
      (scanToQuote tail).map fun (scanned, rest) => ('\\' :: c :: scanned, rest) :=
  rfl

theorem scanToQuote_octalDigit (n : Nat) (tail : List Char) :
    scanToQuote (octalDigit n :: tail) =
      (scanToQuote tail).map fun (scanned, rest) => (octalDigit n :: scanned, rest) := by
  have hall : ∀ k < 8, Nat.digitChar k ≠ '"' ∧ Nat.digitChar k ≠ '\\' := by decide
  obtain ⟨hquote, hslash⟩ := hall _ (Nat.mod_lt n (by decide))
  exact scanToQuote_plain hquote hslash tail

/-- What is written for one character is passed over as a whole. -/
theorem scanToQuote_literalChar (c : Char) (tail : List Char) :
    scanToQuote (literalChar c ++ tail) =
      (scanToQuote tail).map fun (scanned, rest) => (literalChar c ++ scanned, rest) := by
  unfold literalChar
  split_ifs with hquote hslash hfeed hreturn htab hcontrol
  · exact scanToQuote_escaped _ tail
  · exact scanToQuote_escaped _ tail
  · exact scanToQuote_escaped _ tail
  · exact scanToQuote_escaped _ tail
  · exact scanToQuote_escaped _ tail
  · -- The backslash takes the first digit along, and the other two are plain characters.
    simp only [List.cons_append, List.nil_append, scanToQuote_escaped, scanToQuote_octalDigit,
      Option.map_map]
    rfl
  · exact scanToQuote_plain hquote hslash tail

theorem scanToQuote_inside (cs tail : List Char) :
    scanToQuote (cs.flatMap literalChar ++ '"' :: tail) =
      some (cs.flatMap literalChar ++ ['"'], tail) := by
  induction cs with
  | nil => rfl
  | cons c cs ih =>
      rw [List.flatMap_cons, List.append_assoc, scanToQuote_literalChar, ih, Option.map_some,
        List.append_assoc]

theorem scanLiteral_literal (text : String) (tail : List Char) :
    scanLiteral ((literal text).toList ++ tail) = some ((literal text).toList, tail) := by
  rw [literal, String.toList_ofList, literalChars, List.cons_append, List.append_assoc,
    List.singleton_append, scanLiteral, if_pos rfl, scanToQuote_inside, Option.map_some]

/-! ## Literals in the lines of the header -/

theorem isControl_eq_false_of_mem_literal (text : String) :
    ∀ written ∈ (literal text).toList, Text.isControl written = false := by
  have hquote : Text.isControl '"' = false := by decide
  rw [literal, String.toList_ofList, literalChars]
  simp only [List.forall_mem_cons, List.forall_mem_append, List.forall_mem_flatMap, hquote]
  exact ⟨trivial, fun c _ => isControl_eq_false_of_mem_literalChar c, trivial, by simp⟩

/-- Texts that begin with literals are the same only if both the literals and what follows are. -/
theorem literal_append_inj {text other rest more : String} :
    literal text ++ rest = literal other ++ more ↔ text = other ∧ rest = more := by
  constructor
  · intro h
    have hscan := scanLiteral_literal text rest.toList
    rw [← String.toList_append, h, String.toList_append, scanLiteral_literal] at hscan
    obtain ⟨hliteral, hrest⟩ := Prod.mk.inj (Option.some.inj hscan)
    exact ⟨literal_injective (String.toList_inj.mp hliteral.symm),
      String.toList_inj.mp hrest.symm⟩
  · rintro ⟨rfl, rfl⟩
    rfl

theorem broadcast_inj {event other : Event} :
    broadcast event = broadcast other ↔ event.name = other.name := by
  rw [broadcast, broadcast, String.append_assoc, String.append_assoc, String.append_right_inj,
    literal_append_inj, and_iff_left rfl]

theorem assignment_inj {field other : Field} {parameter another : String} :
    assignment field parameter = assignment other another ↔
      field.name = other.name ∧ parameter = another := by
  have hbehind (field : Field) (parameter : String) : assignment field parameter =
      "    payload[" ++ (literal field.name ++ ("] = " ++ (parameter ++ ";"))) := by
    simp only [assignment, String.append_assoc]
  rw [hbehind, hbehind, String.append_right_inj, literal_append_inj, String.append_right_inj,
    String.append_left_inj]

/-- Whatever follows a literal of the header, its end is found where it was written. No control
character stands in it, so it is on one line, and different texts have different literals. The
lines that send an event and that put a field under its key therefore tell which event and which
field they are about. -/
theorem literals_stand_apart :
    (∀ text tail, scanLiteral ((literal text).toList ++ tail) =
        some ((literal text).toList, tail)) ∧
      (∀ text, '\n' ∉ (literal text).toList ∧ '\r' ∉ (literal text).toList ∧
        ¬ ∃ written ∈ (literal text).toList, Text.isControl written = true) ∧
      (∀ text other, literal text = literal other ↔ text = other) ∧
      (∀ event other, broadcast event = broadcast other ↔ event.name = other.name) ∧
      ∀ field other parameter another, assignment field parameter = assignment other another ↔
        field.name = other.name ∧ parameter = another := by
  refine ⟨scanLiteral_literal, fun text => ?_, fun _ _ => literal_injective.eq_iff,
    fun _ _ => broadcast_inj, fun _ _ _ _ => assignment_inj⟩
  have hplain := isControl_eq_false_of_mem_literal text
  refine ⟨fun hfeed => ?_, fun hreturn => ?_, ?_⟩
  · exact absurd (hplain _ hfeed) (by decide)
  · exact absurd (hplain _ hreturn) (by decide)
  · rintro ⟨written, hmem, hcontrol⟩
    rw [hplain written hmem] at hcontrol
    cases hcontrol

/-- An escape of three digits and two more digits behind it, a quote and a backslash. -/
example : scanLiteral "\"\\00707\\\"\\\\\", payload);".toList =
    some ((literal "\x0707\"\\").toList, ", payload);".toList) := by
  decide

end EventContract.Emission
