import EventContract.Proofs.CheckedSchema
import EventContract.Proofs.FixedText
import EventContract.Proofs.IdentifierText

/-! # Payload types that capture a name of the client

Reserved names are compared with the names of events as they are, while the types of their payloads
are declared beside a text that refers to a type of the browser by its name. Payload types are named
like it exactly for the names that are spelled like one reserved name but for the case of its first
letter and the characters around it.
-/

namespace EventContract

/-! ## Names with one word -/

namespace Name

variable {fresh : Bool} {cs word : List Char} {first : Char}

theorem guardFront_eq_cons_iff (hscore : first ≠ '_') :
    guardFront cs = first :: word ↔ cs = first :: word ∧ first.isDigit = false := by
  unfold guardFront
  split
  next => simp [hscore.symm]
  next c rest =>
    split
    next hdigit =>
      refine iff_of_false (fun heq => hscore (List.cons.inj heq).1.symm) ?_
      rintro ⟨heq, hfirst⟩
      rw [(List.cons.inj heq).1, hfirst] at hdigit
      cases hdigit
    next hdigit =>
      refine (and_iff_left_of_imp fun heq => ?_).symm
      rwa [← (List.cons.inj heq).1, ← Bool.not_eq_true]

theorem capitalised_eq_nil_iff :
    capitalised fresh cs = [] ↔ ∀ c ∈ cs, isAlphanumeric c = false := by
  fun_induction capitalised fresh cs with
  | case1 => simp
  | case2 fresh c rest hseparates ih =>
      rw [List.forall_mem_cons, ih, and_iff_right (by simpa using hseparates)]
  | case3 fresh c rest hword =>
      refine iff_of_false (List.cons_ne_nil _ _) fun h => hword ?_
      rw [(List.forall_mem_cons.mp h).1, Bool.not_false]

/-- The first character comes from the first one of the first word. -/
theorem capitalised_true_eq_cons_iff :
    capitalised true cs = first :: word ↔
      ∃ before opening rest, cs = before ++ opening :: rest ∧
        (∀ c ∈ before, isAlphanumeric c = false) ∧ isAlphanumeric opening = true ∧
        opening.toUpper = first ∧ capitalised false rest = word := by
  induction cs with
  | nil => simp [capitalised]
  | cons c cs ih =>
      rw [capitalised]
      cases hc : isAlphanumeric c with
      | false =>
          rw [Bool.not_false, if_pos rfl, ih]
          constructor
          · rintro ⟨before, opening, rest, rfl, hbefore, hopening⟩
            exact ⟨c :: before, opening, rest, rfl, List.forall_mem_cons.mpr ⟨hc, hbefore⟩,
              hopening⟩
          · rintro ⟨before, opening, rest, heq, hbefore, hopening, hword⟩
            cases before with
            | nil =>
                rw [List.nil_append, List.cons.injEq] at heq
                rw [← heq.1, hc] at hopening
                cases hopening
            | cons _ before =>
                rw [List.cons_append, List.cons.injEq] at heq
                exact ⟨before, opening, rest, heq.2, (List.forall_mem_cons.mp hbefore).2, hopening,
                  hword⟩
      | true =>
          simp only [Bool.not_true, Bool.false_eq_true, ↓reduceIte, List.cons.injEq]
          constructor
          · rintro ⟨hfirst, hword⟩
            exact ⟨[], c, cs, rfl, List.forall_mem_nil _, hc, hfirst, hword⟩
          · rintro ⟨before, opening, rest, heq, hbefore, -, hfirst, hword⟩
            cases before with
            | nil =>
                rw [List.nil_append, List.cons.injEq] at heq
                rw [heq.1, heq.2]
                exact ⟨hfirst, hword⟩
            | cons _ before =>
                rw [List.cons_append, List.cons.injEq] at heq
                rw [heq.1, (List.forall_mem_cons.mp hbefore).1] at hc
                cases hc

/-- What is written in lower case is the rest of one word, since a second one would open with a
capital or a digit. -/
theorem capitalised_false_eq_iff (hlower : ∀ c ∈ word, c.isLower = true) :
    capitalised false cs = word ↔
      ∃ after, cs = word ++ after ∧ ∀ c ∈ after, isAlphanumeric c = false := by
  induction cs generalizing word with
  | nil =>
      cases word with
      | nil => simp [capitalised]
      | cons first word => simp [capitalised]
  | cons c cs ih =>
      cases word with
      | nil => simp [capitalised_eq_nil_iff]
      | cons first word =>
          obtain ⟨hfirst, hword⟩ := List.forall_mem_cons.mp hlower
          rw [capitalised]
          cases hc : isAlphanumeric c with
          | false =>
              rw [Bool.not_false, if_pos rfl]
              refine iff_of_false (fun heq => ?_) ?_
              · obtain ⟨-, opening, -, -, -, -, hupper, -⟩ := capitalised_true_eq_cons_iff.mp heq
                rw [← hupper, Char.isLower_toUpper_eq_false] at hfirst
                cases hfirst
              · rintro ⟨after, heq, -⟩
                rw [List.cons_append, List.cons.injEq] at heq
                rw [heq.1, isAlphanumeric_of_isLower hfirst] at hc
                cases hc
          | true =>
              simp only [Bool.not_true, Bool.false_eq_true, ↓reduceIte, List.cons.injEq,
                List.cons_append, ih hword, and_assoc, exists_and_left]

/-- A capitalised word is what a name becomes that has no other word, written with or without the
capital. -/
theorem pascal_eq_word_iff {name : String} (hfirst : first.isUpper = true)
    (hlower : ∀ c ∈ word, c.isLower = true) :
    pascal name = String.ofList (first :: word) ↔
      ∃ before opening after, name.toList = before ++ opening :: (word ++ after) ∧
        opening.toUpper = first ∧ ∀ c ∈ before ++ after, isAlphanumeric c = false := by
  have hscore : first ≠ '_' := by
    rintro rfl
    cases hfirst
  have hdigit : first.isDigit = false := by
    rw [← Bool.not_eq_true]
    intro hdigit
    have halpha := isAlpha_eq_false_of_isDigit hdigit
    rw [Char.isAlpha, hfirst] at halpha
    cases halpha
  rw [pascal, String.ofList_inj, pascalChars, guardFront_eq_cons_iff hscore, and_iff_left hdigit,
    capitalised_true_eq_cons_iff]
  simp only [capitalised_false_eq_iff hlower, List.forall_mem_append]
  constructor
  · rintro ⟨before, opening, rest, heq, hbefore, -, hupper, after, rfl, hafter⟩
    exact ⟨before, opening, after, heq, hupper, hbefore, hafter⟩
  · rintro ⟨before, opening, after, heq, hupper, hbefore, hafter⟩
    refine ⟨before, opening, word ++ after, heq, hbefore, ?_, hupper, after, rfl, hafter⟩
    exact isAlphanumeric_of_isAlpha (by rw [← Char.isUpper_toUpper_eq_isAlpha, hupper, hfirst])

end Name

/-! ## Names spelled like a message -/

/-- A name that reads `message` or `Message` where it has letters and digits at all. -/
def SpellsMessage (name : String) : Prop :=
  ∃ before opening after, name.toList = before ++ opening :: ("essage".toList ++ after) ∧
    (opening = 'm' ∨ opening = 'M') ∧ ∀ c ∈ before ++ after, Name.isAlphanumeric c = false

theorem toUpper_eq_M_iff (c : Char) : c.toUpper = 'M' ↔ c = 'm' ∨ c = 'M' := by
  constructor
  · intro h
    have hlower : c.toLower = 'm' := by
      rw [← Char.toLower_toUpper_eq_toLower, h]
      rfl
    by_cases hcapital : c.isUpper = true
    · rw [Char.toUpper_eq_of_not_isLower (Char.not_isLower_of_isUpper hcapital)] at h
      exact .inr h
    · rw [Char.toLower_eq_of_not_isUpper hcapital] at hlower
      exact .inl hlower
  · rintro (rfl | rfl)
    · rfl
    · rfl

theorem payloadType_eq_messageEvent_iff (name : String) :
    Name.payloadType name = "MessageEvent" ↔ SpellsMessage name := by
  have happend : "MessageEvent" = String.ofList ('M' :: "essage".toList) ++ "Event" := by
    decide +kernel
  rw [Name.payloadType, happend, String.append_left_inj,
    Name.pascal_eq_word_iff (by decide) (by simp)]
  simp only [toUpper_eq_M_iff]
  rfl

/-- Of the names spelled like a message, one is reserved. -/
theorem SpellsMessage.unreserved_iff {name : String} (h : SpellsMessage name) :
    name ≠ "" ∧ name ∉ reservedNames ↔ name ≠ "message" := by
  have hother : ∀ other ∈ ["", "error", "open"], name ≠ other := by
    have htypes : ∀ other ∈ ["", "error", "open"], Name.payloadType other ≠ "MessageEvent" := by
      decide +kernel
    rintro other hmem rfl
    exact htypes _ hmem ((payloadType_eq_messageEvent_iff _).mpr h)
  simp only [List.forall_mem_cons] at hother
  obtain ⟨hempty, herror, hopen, -⟩ := hother
  simp [reservedNames, hempty, herror, hopen]

/-! ## The payload types of a module -/

namespace Consumption

theorem payloadType_mem_identifiers_iff (name : String) :
    Name.payloadType name ∈ identifiers (Text.unlines fixedLines) ↔ SpellsMessage name := by
  have hends : namesPayload (Name.payloadType name).toList = true := by
    rw [namesPayload, List.isSuffixOf_iff_suffix, Name.payloadType, String.toList_append]
    exact List.suffix_append _ _
  rw [mem_identifiers_fixedLines_iff hends, payloadType_eq_messageEvent_iff]

/-- The text that every module has in common is free of the names of a schema's payload types
exactly if no event is spelled like a message. Of the names that are, none but the reserved one is
kept from the events of accepted schemas. -/
theorem payload_types_apart_iff (schema : Schema) :
    (∀ options source, fixedLines ⊆ moduleLines schema options source) ∧
      ((∀ event ∈ schema.events,
          Name.payloadType event.name ∉ identifiers (Text.unlines fixedLines)) ↔
        ∀ event ∈ schema.events, ¬ SpellsMessage event.name) ∧
      ∀ name, (SpellsMessage name ∧
          ∃ accepted : Schema, accepted.check = .ok () ∧ name ∈ accepted.eventNames) ↔
        SpellsMessage name ∧ name ≠ "message" := by
  refine ⟨fixedLines_subset schema, ?_, fun name => ?_⟩
  · exact forall₂_congr fun event _ => not_congr (payloadType_mem_identifiers_iff event.name)
  · refine and_congr_right fun hspells => ?_
    rw [Schema.exists_accepted_iff, hspells.unreserved_iff]

/-- A schema with an event that is no reserved name, for it is written with a capital. -/
def chatSchema : Schema where
  endpoint := "/events"
  events := [⟨"Message", "", [⟨"text", .string, "", none⟩]⟩]

/-- The module for it declares the type that its own client takes for the browser's. -/
theorem message_type_captured :
    chatSchema.check = .ok () ∧
      "export interface MessageEvent \x7b" ∈ chatSchema.events.flatMap payloadInterface ∧
      "      source.addEventListener(name, (message: MessageEvent) => \x7b" ∈ clientText ∧
      ¬ ∀ schema : Schema, schema.check = .ok () → ∀ event ∈ schema.events,
        Name.payloadType event.name ∉ identifiers (Text.unlines fixedLines) := by
  have hcheck : chatSchema.check = .ok () := by decide +kernel
  refine ⟨hcheck, by decide +kernel, by decide +kernel, fun h => ?_⟩
  refine h chatSchema hcheck _ (List.mem_singleton.mpr rfl) ?_
  exact (payloadType_mem_identifiers_iff "Message").mpr
    ⟨[], 'M', [], by decide, .inr rfl, List.forall_mem_nil _⟩

end Consumption

end EventContract
