import EventContract.Proofs.CheckedSchema
import EventContract.Proofs.IdentifierText

/-! # The words of a name

The words of a name are the stretches of letters and digits between its other characters. Pascal
case keeps nothing else of a name, and gives back the words it was made of, capitalised. So it may
be applied again, it does not see which characters separate the words, and it tells names apart by
their words alone.
-/

namespace EventContract

namespace Name

variable {cs word gap first : List Char} {more : List (List Char)} {c : Char}

/-! ## Words -/

def isSeparator (c : Char) : Bool := !isAlphanumeric c

/-- The longest stretches of letters and digits, in order. -/
def words (cs : List Char) : List (List Char) :=
  (cs.splitOnP isSeparator).filter fun word => !word.isEmpty

/-- A word with its first character in upper case. -/
def capitalise : List Char → List Char
  | [] => []
  | c :: rest => c.toUpper :: rest

/-- The capitalised words of a name next to each other. -/
def joinedWords (name : String) : List Char := (words name.toList).flatMap capitalise

theorem isSeparator_eq_false (h : isAlphanumeric c = true) : isSeparator c = false := by
  rw [isSeparator, h, Bool.not_true]

/-- A separator ends a word, whatever stands around it. -/
theorem words_append_separator (hc : isSeparator c = true) (front back : List Char) :
    words (front ++ c :: back) = words front ++ words back := by
  rw [words, List.splitOnP_append_cons _ _ hc, List.filter_append]
  rfl

theorem words_separators_append (hgap : ∀ c ∈ gap, isSeparator c = true) (back : List Char) :
    words (gap ++ back) = words back := by
  induction gap with
  | nil => rfl
  | cons c gap ih =>
      obtain ⟨hc, hgap⟩ := List.forall_mem_cons.mp hgap
      have hfront := words_append_separator hc [] (gap ++ back)
      rwa [ih hgap] at hfront

/-- Which separators stand between two texts, and how many, is not seen in the words. -/
theorem words_append_gap (hne : gap ≠ []) (hgap : ∀ c ∈ gap, isSeparator c = true)
    (front back : List Char) : words (front ++ gap ++ back) = words front ++ words back := by
  cases gap with
  | nil => exact absurd rfl hne
  | cons c gap =>
      obtain ⟨hc, hgap⟩ := List.forall_mem_cons.mp hgap
      rw [List.append_assoc, List.cons_append, words_append_separator hc,
        words_separators_append hgap]

theorem words_of_alphanumeric (hne : word ≠ []) (hword : ∀ c ∈ word, isAlphanumeric c = true) :
    words word = [word] := by
  rw [words, List.splitOnP_eq_singleton fun c hc => isSeparator_eq_false (hword c hc)]
  simpa using hne

/-! ## Capitalised words -/

/-- What is written of a text, given what stands in it up to the first separator: this is a word of
its own only if a word may begin there. -/
theorem capitalised_eq_of_split {fresh : Bool} (h : cs.splitOnP isSeparator = first :: more) :
    capitalised fresh cs =
      (if fresh then capitalise first else first) ++ more.flatMap capitalise := by
  induction cs generalizing fresh first more with
  | nil =>
      rw [List.splitOnP_nil] at h
      cases h
      cases fresh <;> rfl
  | cons c cs ih =>
      obtain ⟨next, later, hrest⟩ :=
        List.exists_cons_of_ne_nil (List.splitOnP_ne_nil isSeparator cs)
      rw [List.splitOnP_cons_eq_if_modifyHead, hrest] at h
      rw [capitalised]
      change (if isSeparator c = true then _ else _) = _
      split at h
      next hseparates =>
        cases h
        rw [if_pos hseparates, ih hrest, if_pos rfl]
        cases fresh <;> rfl
      next hword =>
        cases h
        rw [if_neg hword, ih hrest]
        cases fresh <;> rfl

theorem flatMap_capitalise_filter (pieces : List (List Char)) :
    (pieces.filter fun word => !word.isEmpty).flatMap capitalise = pieces.flatMap capitalise := by
  induction pieces with
  | nil => rfl
  | cons piece pieces ih => cases piece <;> simp [capitalise, ih]

theorem capitalised_eq_joinedWords (name : String) :
    capitalised true name.toList = joinedWords name := by
  obtain ⟨first, more, hsplit⟩ :=
    List.exists_cons_of_ne_nil (List.splitOnP_ne_nil isSeparator name.toList)
  rw [capitalised_eq_of_split hsplit, if_pos rfl, joinedWords, words, flatMap_capitalise_filter,
    hsplit, List.flatMap_cons]

theorem toList_pascal (name : String) : (pascal name).toList = guardFront (joinedWords name) := by
  rw [pascal, String.toList_ofList, pascalChars, capitalised_eq_joinedWords]

/-! ## Reading the words back -/

theorem capitalise_capitalised (cs : List Char) :
    capitalise (capitalised true cs) = capitalised true cs := by
  induction cs with
  | nil => rfl
  | cons c cs ih =>
      rw [capitalised]
      split
      · exact ih
      · rw [if_pos rfl, capitalise, Char.toUpper_toUpper_eq_toUpper]

/-- The mark in front is a separator, and without it there is one word, which is capitalised. -/
theorem capitalised_guardFront (cs : List Char) :
    capitalised true (guardFront (capitalised true cs)) = capitalised true cs := by
  have hagain : capitalised true (capitalised true cs) = capitalised true cs := by
    have hsplit : (capitalised true cs).splitOnP isSeparator = [capitalised true cs] :=
      List.splitOnP_eq_singleton fun c hc =>
        isSeparator_eq_false (isAlphanumeric_of_mem_capitalised hc)
    rw [capitalised_eq_of_split hsplit, if_pos rfl, List.flatMap_nil, List.append_nil,
      capitalise_capitalised]
  generalize capitalised true cs = joined at hagain
  unfold guardFront
  split
  · rfl
  · split
    · exact hagain
    · exact hagain

theorem joinedWords_pascal (name : String) : joinedWords (pascal name) = joinedWords name := by
  rw [← capitalised_eq_joinedWords (pascal name), toList_pascal, ← capitalised_eq_joinedWords,
    capitalised_guardFront]

theorem pascal_eq_iff {a b : String} : pascal a = pascal b ↔ joinedWords a = joinedWords b := by
  constructor
  · intro h
    rw [← joinedWords_pascal a, h, joinedWords_pascal]
  · intro h
    apply String.toList_inj.mp
    rw [toList_pascal, toList_pascal, h]

theorem payloadType_eq_iff {a b : String} :
    payloadType a = payloadType b ↔ joinedWords a = joinedWords b := by
  rw [payloadType, payloadType, String.append_left_inj, pascal_eq_iff]

theorem guardFront_eq (cs : List Char) : guardFront cs =
    (if cs = [] ∨ ∃ c ∈ cs.head?, c.isDigit = true then ['_'] else []) ++ cs := by
  cases cs with
  | nil => rfl
  | cons c rest => by_cases hc : c.isDigit = true <;> simp [guardFront, hc]

end Name

/-! ## Names of a schema -/

theorem Schema.nodup_types_iff (schema : Schema) :
    (schema.eventNames.map Name.payloadType).Nodup ↔
      (schema.eventNames.map Name.joinedWords).Nodup := by
  rw [List.Nodup, List.Nodup, List.pairwise_map, List.pairwise_map]
  simp only [ne_eq, Name.payloadType_eq_iff]

namespace Name

/-- Words are what stands between separators, be it one or more and whichever. A name in Pascal case
has the capitalised words of the name one after the other, behind an underscore if nothing is left
or a digit comes first. So to apply it again changes nothing, names with the same words come to the
same, and names have one payload type exactly if their capitalised words, put together, are one
text: this is what the check of a schema refuses. -/
theorem pascal_by_words :
    ((∀ word, word ≠ [] → (∀ c ∈ word, isAlphanumeric c = true) → words word = [word]) ∧
      ∀ front gap back, gap ≠ [] → (∀ c ∈ gap, isSeparator c = true) →
        words (front ++ gap ++ back) = words front ++ words back) ∧
    (∀ name, (pascal name).toList =
      (if joinedWords name = [] ∨ ∃ c ∈ (joinedWords name).head?, c.isDigit = true then ['_']
        else []) ++ joinedWords name) ∧
    (∀ name, pascal (pascal name) = pascal name) ∧
    (∀ a b, words a.toList = words b.toList → pascal a = pascal b) ∧
    (∀ a b, payloadType a = payloadType b ↔ joinedWords a = joinedWords b) ∧
    ∀ schema : Schema, schema.check = .ok () ↔
      schema.endpoint ≠ "" ∧ (∀ event ∈ schema.events, event.IsComplete) ∧
        (∀ name ∈ schema.eventNames, name ∉ reservedNames) ∧
        (schema.eventNames.map joinedWords).Nodup := by
  refine ⟨⟨?_, ?_⟩, ?_, ?_, ?_, ?_, ?_⟩
  · intro word hne hword
    exact words_of_alphanumeric hne hword
  · intro front gap back hne hgap
    exact words_append_gap hne hgap front back
  · intro name
    rw [toList_pascal, guardFront_eq]
  · intro name
    rw [pascal_eq_iff, joinedWords_pascal]
  · intro a b hwords
    rw [pascal_eq_iff, joinedWords, hwords, joinedWords]
  · intro a b
    exact payloadType_eq_iff
  · intro schema
    rw [Schema.check_eq_ok_iff, ← schema.nodup_types_iff]
    exact ⟨fun h => ⟨h.endpoint, h.complete, h.unreserved, h.types⟩,
      fun ⟨hendpoint, hcomplete, hfree, htypes⟩ => ⟨hendpoint, hcomplete, hfree, htypes⟩⟩

/-- Names of three words and of none, one of them in Pascal case already, one led by a digit. -/
theorem pascal_by_words_spellings :
    words "layer-2.é-userID".toList = ["layer".toList, "2".toList, "userID".toList] ∧
      pascal "layer-2.é-userID" = "Layer2UserID" ∧
      pascal "layer-2.é-userID" = pascal " layer__2 userID!" ∧
      payloadType "layer-2.é-userID" = payloadType "Layer2UserID" ∧
      pascal (pascal "3d view") = "_3dView" ∧ pascal "é" = "_" := by
  obtain ⟨⟨hword, hgap⟩, hpascal, htwice, hsame, hshared, -⟩ := pascal_by_words
  have hall {p : Char → Bool} {cs : List Char} (h : cs.all p = true) : ∀ c ∈ cs, p c = true :=
    List.all_eq_true.mp h
  have hwords : words "layer-2.é-userID".toList =
      ["layer".toList, "2".toList, "userID".toList] := by
    have hfirst := hgap "layer".toList ['-'] "2.é-userID".toList (by decide) (hall (by decide))
    have hsecond := hgap "2".toList ['.', 'é', '-'] "userID".toList (by decide) (hall (by decide))
    rw [hword "layer".toList (by decide) (hall (by decide))] at hfirst
    rw [hword "2".toList (by decide) (hall (by decide)),
      hword "userID".toList (by decide) (hall (by decide))] at hsecond
    rwa [show "2.é-userID".toList = "2".toList ++ ['.', 'é', '-'] ++ "userID".toList from rfl,
      hsecond] at hfirst
  have hjoined : joinedWords "layer-2.é-userID" = "Layer2UserID".toList := by
    rw [joinedWords, hwords]
    decide +kernel
  refine ⟨hwords, ?_, ?_, ?_, ?_, ?_⟩
  · apply String.toList_inj.mp
    rw [hpascal, hjoined]
    simp
  · exact hsame _ _ (by decide +kernel)
  · exact (hshared _ _).mpr (by decide +kernel)
  · rw [htwice]
    decide +kernel
  · decide +kernel

end Name

end EventContract
