import EventContract.Consumption.Literal
import EventContract.Emission.Literal
import EventContract.Proofs.IdentifierText
import EventContract.Schema.Typing

/-! # Literals stay on their line

A literal has no line feed, whatever its text, and neither has a key or a type in which literals
stand. This is where no text of a schema gets to open a line of its own.
-/

namespace EventContract

/-! ## Literals of both artifacts -/

/-- Control characters are escaped, and the letters and digits of an escape are none. -/
theorem Emission.isControl_eq_false_of_mem_literalChar (c : Char) :
    ∀ written ∈ Emission.literalChar c, Text.isControl written = false := by
  have hdigit (n : Nat) : Text.isControl (Emission.octalDigit n) = false := by
    have hall : ∀ k < 8, Text.isControl (Nat.digitChar k) = false := by decide
    exact hall _ (Nat.mod_lt _ (by decide))
  have hmarks : Text.isControl '\\' = false ∧ Text.isControl '"' = false := by decide
  have hletters : Text.isControl 'n' = false ∧ Text.isControl 'r' = false ∧
      Text.isControl 't' = false := by decide
  unfold Emission.literalChar
  split_ifs <;> simp_all

theorem Emission.feed_not_mem_literalChar (c : Char) : '\n' ∉ Emission.literalChar c := by
  intro hfeed
  have hcontrol := Emission.isControl_eq_false_of_mem_literalChar c _ hfeed
  exact absurd hcontrol (by decide)

theorem Emission.oneLine_literal (text : String) : Text.OneLine (Emission.literal text) := by
  rw [Emission.literal, Text.oneLine_ofList, Emission.literalChars]
  simp [Emission.feed_not_mem_literalChar]

theorem Json.Quoted.feed_not_mem_encodeChar (c : Char) : '\n' ∉ Json.Quoted.encodeChar c := by
  have hdigit : ∀ k < 16, '\n' ≠ Json.Quoted.hexDigit k := by decide
  by_cases hfeed : c = '\n'
  · subst hfeed
    decide
  · unfold Json.Quoted.encodeChar
    by_cases hcontrol : c.toNat < 0x20
    · have hhigh := hdigit (c.toNat / 16) (by omega)
      have hlow := hdigit (c.toNat % 16) (by omega)
      split_ifs <;> simp [hhigh, hlow]
    · split_ifs <;> simp [Ne.symm hfeed]

theorem Json.Quoted.oneLine_quote (text : String) : Text.OneLine (Json.Quoted.quote text) := by
  rw [Json.Quoted.quote, Text.oneLine_ofList, Json.Quoted.encode]
  simp [Json.Quoted.feed_not_mem_encodeChar]

/-! ## Keys and types -/

namespace Consumption

/-- The characters of a bare key are those of identifiers and the dollar sign. -/
theorem bareKey_char {name : String} (h : isBareKey name = true) :
    ∀ c ∈ name.toList, c = '$' ∨ Name.isIdentifierChar c = true := by
  intro c hc
  have hchar := Name.isIdentifierChar_of_mem h _ (List.mem_map_of_mem hc)
  split at hchar
  next hdollar => exact .inl hdollar
  next => exact .inr hchar

theorem oneLine_propertyKey (name : String) : Text.OneLine (propertyKey name) := by
  unfold propertyKey
  split
  next hbare =>
    intro hfeed
    rcases bareKey_char hbare _ hfeed with heq | hchar
    · exact absurd heq (by decide)
    · exact absurd hchar (by decide)
  next => exact Json.Quoted.oneLine_quote name

/-- A key is not taken for blank space or for a comment. -/
theorem propertyKey_front (name : String) :
    ∃ c rest, (propertyKey name).toList = c :: rest ∧ c ≠ ' ' ∧ c ≠ '/' := by
  unfold propertyKey
  split
  next hbare =>
    cases hname : name.toList with
    | nil =>
        -- The empty name is no identifier.
        rw [isBareKey, hname] at hbare
        exact absurd hbare (by decide)
    | cons c rest =>
        have hc : c = '$' ∨ Name.isIdentifierChar c = true :=
          bareKey_char hbare c (by simp [hname])
        refine ⟨c, rest, rfl, ?_, ?_⟩
        · rintro rfl
          exact absurd hc (by decide)
        · rintro rfl
          exact absurd hc (by decide)
  next =>
    refine ⟨'"', name.toList.flatMap Json.Quoted.encodeChar ++ ['"'], ?_, by decide, by decide⟩
    rw [literal, Json.Quoted.quote, String.toList_ofList, Json.Quoted.encode]

end Consumption

theorem Field.oneLine_typeFor (field : Field) (target : Target) :
    Text.OneLine (field.typeFor target).text := by
  have hplain : Text.OneLine field.type.inConsumption.text := by cases field.type <;> decide
  cases target with
  | emission =>
      change Text.OneLine field.type.inEmission.text
      cases field.type <;> decide
  | consumption =>
      simp only [typeFor]
      split
      · apply Text.OneLine.joined (by decide)
        intro value hvalue
        obtain ⟨text, -, rfl⟩ := List.mem_map.mp hvalue
        exact Json.Quoted.oneLine_quote text
      · exact hplain

end EventContract
