import EventContract.Consumption.Module
import EventContract.Proofs.IdentifierText
import EventContract.Proofs.WrittenJson

/-! # Lists of literals read back

A literal tells where it ends, whatever stands behind it. So a list of literals falls apart from
left to right, and what looks like a separator inside of a literal is never taken for one.
-/

namespace EventContract

/-! ## Literals -/

namespace Json.Quoted

variable {cs rest text : List Char} {c : Char}

theorem exists_of_map_cons
    (h : ((decode cs).map fun (more, rest) => (c :: more, rest)) = some (text, rest)) :
    ∃ more, decode cs = some (more, rest) := by
  obtain ⟨⟨more, left⟩, hdecode, heq⟩ := Option.map_eq_some_iff.mp h
  cases heq
  exact ⟨more, hdecode⟩

/-- Reading up to the closing quote takes something away. -/
theorem length_lt_of_decode (h : decode cs = some (text, rest)) : rest.length < cs.length := by
  -- Most cases refuse the text; the others read one character and go on.
  fun_induction decode cs generalizing text rest with
  | case2 more =>
      cases h
      exact Nat.lt_succ_self _
  | case5 | case9 | case11 | case13 =>
      rename_i ih
      obtain ⟨_, hmore⟩ := exists_of_map_cons h
      have hlength := ih hmore
      simp only [List.length_cons]
      omega
  | _ => cases h

end Json.Quoted

namespace Consumption

variable {separator text : String} {cs rest tail : List Char} {texts : List String}

/-- The text of the literal in front, and what follows it. -/
def readLiteral : List Char → Option (String × List Char)
  | '"' :: rest => (Json.Quoted.decode rest).map fun (text, rest) => (String.ofList text, rest)
  | _ => none

theorem length_lt_of_readLiteral (h : readLiteral cs = some (text, rest)) :
    rest.length < cs.length := by
  unfold readLiteral at h
  split at h
  next =>
    obtain ⟨⟨inside, left⟩, hdecode, heq⟩ := Option.map_eq_some_iff.mp h
    cases heq
    exact (Json.Quoted.length_lt_of_decode hdecode).trans (Nat.lt_succ_self _)
  next => cases h

/-- A literal ends at its closing quote, whatever the text and whatever follows. -/
theorem readLiteral_literal (text : String) (tail : List Char) :
    readLiteral ((literal text).toList ++ tail) = some (text, tail) := by
  obtain ⟨inside, heq, hdecode⟩ := Json.Quoted.exists_decode_quote text tail
  rw [literal, heq, readLiteral, hdecode, Option.map_some]
  simp only [String.ofList_toList]

/-- A literal alone is a string of JSON. -/
theorem read_literal (text : String) : Json.read (literal text) = some (.string text) := by
  have hread : Json.read (Json.write .compact 0 (.string text) ++ "") = some (.string text) :=
    (Json.Textual.string text).read_write .compact (by simp)
  rwa [String.append_empty, Json.write] at hread

/-! ## Lists of literals -/

theorem length_le_of_dropPrefix? {mark : List Char} (h : cs.dropPrefix? mark = some rest) :
    rest.length ≤ cs.length := by
  obtain ⟨front, rfl, -⟩ := List.dropPrefix?_eq_some_iff.mp h
  rw [List.length_append]
  exact Nat.le_add_left _ _

/-- The texts of literals with a separator between each two, and what follows them. There is at
least one, and one behind each separator. -/
def readLiterals (separator : String) (cs : List Char) : Option (List String × List Char) :=
  match _hfirst : readLiteral cs with
  | none => none
  | some (text, rest) =>
    match _hmore : rest.dropPrefix? separator.toList with
    | none => some ([text], rest)
    | some rest => (readLiterals separator rest).map fun (more, rest) => (text :: more, rest)
termination_by cs.length
decreasing_by
  exact (length_le_of_dropPrefix? _hmore).trans_lt (length_lt_of_readLiteral _hfirst)

theorem dropPrefix?_eq_none {mark : List Char} (h : ¬ mark <+: cs) :
    cs.dropPrefix? mark = none := by
  rw [Option.eq_none_iff_forall_not_mem]
  intro more hmore
  obtain ⟨front, rfl, hfront⟩ := List.dropPrefix?_eq_some_iff.mp hmore
  exact h ⟨more, by rw [eq_of_beq hfront]⟩

theorem readLiterals_last (hfirst : readLiteral cs = some (text, rest))
    (hend : ¬ separator.toList <+: rest) : readLiterals separator cs = some ([text], rest) := by
  have hdrop : rest.dropPrefix? separator.toList = none := dropPrefix?_eq_none hend
  rw [readLiterals.eq_def]
  grind

theorem readLiterals_more (hfirst : readLiteral cs = some (text, separator.toList ++ rest))
    (hmore : readLiterals separator rest = some (texts, tail)) :
    readLiterals separator cs = some (text :: texts, tail) := by
  have hdrop : (separator.toList ++ rest).dropPrefix? separator.toList = some rest :=
    List.dropPrefix?_append_of_beq rest (BEq.refl _)
  rw [readLiterals.eq_def]
  grind

/-- Literals in a row give back their texts, in front of anything that goes on with no separator. -/
theorem readLiterals_joined (hnonempty : texts ≠ []) (hend : ¬ separator.toList <+: tail) :
    readLiterals separator ((Text.joined separator (texts.map literal)).toList ++ tail) =
      some (texts, tail) := by
  unfold Text.joined
  induction texts with
  | nil => exact absurd rfl hnonempty
  | cons text more ih =>
      cases more with
      | nil =>
          rw [List.map_singleton, String.intercalate_singleton]
          exact readLiterals_last (readLiteral_literal text tail) hend
      | cons next more =>
          rw [List.map_cons, List.map_cons, String.intercalate_cons_cons, String.toList_append,
            String.toList_append, List.append_assoc, List.append_assoc]
          exact readLiterals_more (readLiteral_literal text _) (ih (by simp))

theorem readLiterals_closed : readLiterals separator (']' :: cs) = none := by
  rw [readLiterals.eq_def]
  rfl

/-- The texts of an array of literals in its brackets, and what follows it. -/
def readArray : List Char → Option (List String × List Char)
  | '[' :: ']' :: rest => some ([], rest)
  | '[' :: rest =>
    match readLiterals ", " rest with
    | some (texts, ']' :: rest) => some (texts, rest)
    | _ => none
  | _ => none

theorem readArray_joined (texts : List String) (tail : List Char) :
    readArray (("[" ++ Text.joined ", " (texts.map literal) ++ "]").toList ++ tail) =
      some (texts, tail) := by
  have htext : ("[" ++ Text.joined ", " (texts.map literal) ++ "]").toList ++ tail =
      '[' :: ((Text.joined ", " (texts.map literal)).toList ++ ']' :: tail) := by
    simp [String.toList_append]
  rw [htext]
  by_cases hempty : texts = []
  · subst hempty
    rfl
  · have hread : readLiterals ", " ((Text.joined ", " (texts.map literal)).toList ++ ']' :: tail) =
        some (texts, ']' :: tail) :=
      readLiterals_joined hempty (by simp)
    unfold readArray
    split
    next heq =>
      -- A literal does not open with the bracket that closes the array.
      rw [(List.cons.inj heq).2, readLiterals_closed] at hread
      cases hread
    next heq =>
      cases heq
      simp only [hread]
    next hother => exact absurd rfl (hother _)

/-! ## Keys -/

/-- A character that an identifier may open with. -/
def opensKey (c : Char) : Bool :=
  c.isAlpha || c == '_' || c == '$'

/-- A character that an identifier may go on with. -/
def continuesKey (c : Char) : Bool :=
  opensKey c || c.isDigit

/-- The name that the key in front stands for, and what follows the key: the text of a literal, or
an identifier as far as it goes. -/
def readKey : List Char → Option (String × List Char)
  | [] => none
  | c :: rest =>
    if c = '"' then readLiteral (c :: rest)
    else if opensKey c then
      some (String.ofList (c :: rest.takeWhile continuesKey), rest.dropWhile continuesKey)
    else none

theorem continuesKey_eq (c : Char) :
    continuesKey c = Name.isIdentifierChar (if c = '$' then '_' else c) := by
  by_cases hdollar : c = '$'
  · subst hdollar
    decide
  · grind [continuesKey, opensKey, Name.isIdentifierChar, Name.isAlphanumeric, Char.isAlphanum]

theorem opensKey_eq (c : Char) :
    opensKey c = (Name.isIdentifierChar (if c = '$' then '_' else c) &&
      !(if c = '$' then '_' else c).isDigit) := by
  rw [← continuesKey_eq]
  by_cases hdollar : c = '$'
  · subst hdollar
    decide
  · rw [if_neg hdollar, continuesKey]
    cases hdigit : c.isDigit with
    | false => simp
    | true =>
        have halpha := Name.isAlpha_eq_false_of_isDigit hdigit
        have hunder : c ≠ '_' := by
          rintro rfl
          cases hdigit
        simp [opensKey, halpha, hunder, hdollar]

/-- A name stands bare exactly if it opens and goes on as an identifier does. -/
theorem isBareKey_cons {name : String} {c : Char} (hname : name.toList = c :: rest) :
    isBareKey name = (opensKey c && rest.all continuesKey) := by
  rw [isBareKey, hname, List.map_cons, Name.isIdentifierChars, ← opensKey_eq, List.all_map]
  congr 2
  funext other
  exact (continuesKey_eq other).symm

/-- A key ends where no character of an identifier follows, and stands for the name. -/
theorem readKey_propertyKey (name : String) (hend : ∀ c ∈ tail.head?, continuesKey c = false) :
    readKey ((propertyKey name).toList ++ tail) = some (name, tail) := by
  unfold propertyKey
  split
  next hbare =>
    cases hname : name.toList with
    | nil =>
        rw [isBareKey, hname] at hbare
        cases hbare
    | cons c rest =>
        obtain ⟨hopens, hrest⟩ := Bool.and_eq_true_iff.mp ((isBareKey_cons hname).symm.trans hbare)
        have hinside : ∀ other ∈ rest, continuesKey other = true := List.all_eq_true.mp hrest
        have hquote : c ≠ '"' := by
          rintro rfl
          cases hopens
        have htake : tail.takeWhile continuesKey = [] := by
          cases tail with
          | nil => rfl
          | cons next more => simp [hend next rfl]
        have hdrop : tail.dropWhile continuesKey = tail := by
          cases tail with
          | nil => rfl
          | cons next more => simp [hend next rfl]
        rw [List.cons_append, readKey, if_neg hquote, if_pos hopens,
          List.takeWhile_append_of_pos hinside, List.dropWhile_append_of_pos hinside, htake, hdrop,
          List.append_nil, ← hname, String.ofList_toList]
  next =>
    obtain ⟨inside, heq, -⟩ := Json.Quoted.exists_decode_quote name tail
    have hread := readLiteral_literal name tail
    rw [literal, heq] at hread ⊢
    rw [readKey, if_pos rfl, hread]

/-! ## Lines of the module -/

/-- The type of a field that is restricted to values is read as the list of them. -/
theorem readLiterals_typeFor {field : Field} {value : String} {more : List String}
    (hvalues : field.allowed = some (value :: more)) (hend : ¬ " | ".toList <+: tail) :
    readLiterals " | " ((field.typeFor .consumption).text.toList ++ tail) =
      some (value :: more, tail) := by
  rw [Field.typeFor, hvalues]
  exact readLiterals_joined (List.cons_ne_nil value more) hend

/-- The union of a schema's event names is read as the list of them. -/
theorem readLiterals_unionType {schema : Schema} (hevents : schema.events ≠ [])
    (hend : ¬ " | ".toList <+: tail) :
    readLiterals " | " ((unionType (nameLiterals schema)).toList ++ tail) =
      some (schema.eventNames, tail) := by
  have hnames : schema.eventNames ≠ [] := by
    rw [Schema.eventNames]
    exact mt List.map_eq_nil_iff.mp hevents
  have hliterals : ¬ (nameLiterals schema).isEmpty = true := by
    simpa [nameLiterals] using hnames
  rw [unionType, if_neg hliterals]
  exact readLiterals_joined hnames hend

/-- The name and the values that a line has for a property of literals. -/
def readProperty (line : String) : Option (String × List String) :=
  match line.toList with
  | ' ' :: ' ' :: rest =>
    match readKey rest with
    | some (name, ':' :: ' ' :: rest) =>
      match readLiterals " | " rest with
      | some (values, [';']) => some (name, values)
      | _ => none
    | _ => none
  | _ => none

/-- The line of a property gives back the name of the field and what it is restricted to. -/
theorem readProperty_property {field : Field} {value : String} {more : List String}
    (hvalues : field.allowed = some (value :: more)) :
    readProperty (property field) = some (field.name, value :: more) := by
  let typeLeft := (field.typeFor .consumption).text.toList ++ [';']
  have hline : (property field).toList =
      ' ' :: ' ' :: ((propertyKey field.name).toList ++ ':' :: ' ' :: typeLeft) := by
    simp [property, typeLeft]
  have hkey : readKey ((propertyKey field.name).toList ++ ':' :: ' ' :: typeLeft) =
      some (field.name, ':' :: ' ' :: typeLeft) := by
    apply readKey_propertyKey
    simp [continuesKey, opensKey]
  have htype : readLiterals " | " typeLeft = some (value :: more, [';']) :=
    readLiterals_typeFor hvalues (by decide)
  simp only [readProperty, hline, hkey, htype]

/-- The texts that a line declares, which stand between its front and a semicolon. -/
def readDeclared (front : String) (read : List Char → Option (List String × List Char))
    (line : String) : Option (List String) :=
  match line.toList.dropPrefix? front.toList with
  | none => none
  | some cs =>
    match read cs with
    | some (texts, [';']) => some texts
    | _ => none

section Declared

variable {front line : String} {read : List Char → Option (List String × List Char)}
  {ls ms : List String} {found : List (List String)} {f : String → Option (List String)}

theorem readDeclared_append (text : String)
    (hread : read (text.toList ++ [';']) = some (texts, [';'])) :
    readDeclared front read (front ++ text ++ ";") = some texts := by
  have hdrop : (front ++ text ++ ";").toList.dropPrefix? front.toList =
      some (text.toList ++ [';']) := by
    rw [String.toList_append, String.toList_append, List.append_assoc]
    exact List.dropPrefix?_append_of_beq _ (BEq.refl _)
  simp only [readDeclared, hdrop, hread]

theorem readDeclared_eq_none (hfront : ¬ Text.Opens front line) :
    readDeclared front read line = none := by
  have hdrop : line.toList.dropPrefix? front.toList = none := dropPrefix?_eq_none hfront
  simp only [readDeclared, hdrop]

theorem filterMap_passed {cs fs : List Char} (hfront : ¬ fs <+: cs)
    (hls : ls.filterMap (readDeclared (String.ofList fs) read) = found) :
    (String.ofList cs :: ls).filterMap (readDeclared (String.ofList fs) read) = found := by
  have hopens : ¬ Text.Opens (String.ofList fs) (String.ofList cs) := by
    rwa [Text.Opens, String.toList_ofList, String.toList_ofList]
  rw [List.filterMap_cons_none (readDeclared_eq_none hopens)]
  exact hls

theorem filterMap_append_nothing (hls : ls.filterMap f = found) (hms : ms.filterMap f = []) :
    (ls ++ ms).filterMap f = found := by
  rw [List.filterMap_append, hls, hms, List.append_nil]

theorem filterMap_mapEntry (hfront : ∀ event, ¬ Text.Opens front (mapEntry event))
    (events : List Event) : (events.map mapEntry).filterMap (readDeclared front read) = [] := by
  rw [List.filterMap_map, List.filterMap_eq_nil_iff]
  exact fun event _ => readDeclared_eq_none (hfront event)

end Declared

/-- The names in a line that declares their union. -/
def readUnionLine : String → Option (List String) :=
  readDeclared "export type EventName = " (readLiterals " | ")

/-- The names in a line that declares the array of them. -/
def readArrayLine : String → Option (List String) :=
  readDeclared "export const EVENT_NAMES: readonly EventName[] = " readArray

/-- One line declares the union of the event names, unless there are none. -/
theorem filterMap_readUnionLine {schema : Schema} (hevents : schema.events ≠ []) :
    (nameSection schema).filterMap readUnionLine = [schema.eventNames] := by
  have hline : readDeclared "export type EventName = " (readLiterals " | ")
      ("export type EventName = " ++ unionType (nameLiterals schema) ++ ";") =
        some schema.eventNames :=
    readDeclared_append _ (readLiterals_unionType hevents (by decide))
  have harray (text : String) : ¬ Text.Opens "export type EventName = "
      ("export const EVENT_NAMES: readonly EventName[] = [" ++ text ++ "];") := by
    simp [Text.Opens]
  unfold nameSection readUnionLine
  refine filterMap_append_nothing (filterMap_append_nothing ?_
    (filterMap_mapEntry (by simp [mapEntry, Text.Opens]) schema.events)) ?_
  · refine filterMap_passed (by decide) ?_
    refine (List.filterMap_cons_some hline).trans (congrArg _ (filterMap_passed (by decide) ?_))
    rw [List.filterMap_cons_none (readDeclared_eq_none (harray _))]
    repeat refine filterMap_passed (by decide) ?_
    rfl
  · repeat refine filterMap_passed (by decide) ?_
    rfl

/-- One line declares the array of the event names. -/
theorem filterMap_readArrayLine (schema : Schema) :
    (nameSection schema).filterMap readArrayLine = [schema.eventNames] := by
  have hline : readDeclared "export const EVENT_NAMES: readonly EventName[] = " readArray
      ("export const EVENT_NAMES: readonly EventName[] = [" ++
        Text.joined ", " (nameLiterals schema) ++ "];") = some schema.eventNames := by
    rw [← readDeclared_append _ (readArray_joined schema.eventNames [';'])]
    -- The brackets are the array's here, and the line's there.
    refine congrArg _ (String.toList_inj.mp ?_)
    simp [nameLiterals]
  have hunion (text : String) : ¬ Text.Opens "export const EVENT_NAMES: readonly EventName[] = "
      ("export type EventName = " ++ text ++ ";") := by
    simp [Text.Opens]
  unfold nameSection readArrayLine
  refine filterMap_append_nothing (filterMap_append_nothing ?_
    (filterMap_mapEntry (by simp [mapEntry, Text.Opens]) schema.events)) ?_
  · refine filterMap_passed (by decide) ?_
    rw [List.filterMap_cons_none (readDeclared_eq_none (hunion _))]
    refine filterMap_passed (by decide) ?_
    refine (List.filterMap_cons_some hline).trans (congrArg _ ?_)
    repeat refine filterMap_passed (by decide) ?_
    rfl
  · repeat refine filterMap_passed (by decide) ?_
    rfl

/-! ## The reading as a whole -/

/-- Literals, keys and lists of literals give back what they are written for, with no bound on what
stands in the texts: a literal and an array in front of anything, a key in front of anything that no
identifier goes on with, and a union in front of anything that opens with no separator. -/
theorem literals_read_back :
    (∀ text, Json.read (literal text) = some (.string text)) ∧
      (∀ text tail, readLiteral ((literal text).toList ++ tail) = some (text, tail)) ∧
      (∀ name tail, (∀ c ∈ tail.head?, continuesKey c = false) →
        readKey ((propertyKey name).toList ++ tail) = some (name, tail)) ∧
      (∀ (field : Field) value more tail, field.allowed = some (value :: more) →
        ¬ " | ".toList <+: tail →
        readLiterals " | " ((field.typeFor .consumption).text.toList ++ tail) =
          some (value :: more, tail)) ∧
      (∀ (schema : Schema) tail, schema.events ≠ [] → ¬ " | ".toList <+: tail →
        readLiterals " | " ((unionType (nameLiterals schema)).toList ++ tail) =
          some (schema.eventNames, tail)) ∧
      ∀ (schema : Schema) tail,
        readArray (("[" ++ Text.joined ", " (nameLiterals schema) ++ "]").toList ++ tail) =
          some (schema.eventNames, tail) := by
  refine ⟨read_literal, readLiteral_literal, ?_, ?_, ?_, ?_⟩
  · intro name tail hend
    exact readKey_propertyKey name hend
  · intro field value more tail hvalues hend
    exact readLiterals_typeFor hvalues hend
  · intro schema tail hevents hend
    exact readLiterals_unionType hevents hend
  · intro schema tail
    exact readArray_joined schema.eventNames tail

/-- Events whose names hold the separators, and quotes around them; one name is there twice. -/
def separatorNames : Schema where
  endpoint := "/events"
  events :=
    [⟨" | ", "", [⟨"at", .number, "", none⟩]⟩, ⟨"\", \"", "", [⟨"at", .number, "", none⟩]⟩,
      ⟨" | ", "", [⟨"at", .number, "", none⟩]⟩]

/-- A field that is restricted to separators. -/
def separatorField : Field :=
  ⟨"$id", .string, "", some ["\" | \"", " | "]⟩

theorem literals_read_back_separators :
    readKey ((propertyKey separatorField.name).toList ++ [':']) = some ("$id", [':']) ∧
      readLiterals " | " ((separatorField.typeFor .consumption).text.toList ++ [';']) =
        some (["\" | \"", " | "], [';']) ∧
      readLiterals " | " ((unionType (nameLiterals separatorNames)).toList ++ [';']) =
        some ([" | ", "\", \"", " | "], [';']) ∧
      readArray (("[" ++ Text.joined ", " (nameLiterals separatorNames) ++ "]").toList ++ [';']) =
        some ([" | ", "\", \"", " | "], [';']) := by
  obtain ⟨-, -, hkey, htype, hunion, harray⟩ := literals_read_back
  have hend : ∀ c ∈ [':'].head?, continuesKey c = false := by simp [continuesKey, opensKey]
  exact ⟨hkey "$id" [':'] hend, htype separatorField _ _ [';'] rfl (by decide),
    hunion separatorNames [';'] (List.cons_ne_nil _ _) (by decide), harray separatorNames [';']⟩

end Consumption
end EventContract
