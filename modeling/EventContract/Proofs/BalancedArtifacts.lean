import EventContract.Generation
import EventContract.Proofs.Brackets
import EventContract.Proofs.DocumentationComments
import EventContract.Proofs.FixedText
import EventContract.Proofs.HeaderCode

/-! # Brackets of the artifacts

A text of a schema gets into an artifact in one of four ways. A literal and the lines of a comment
have the brackets of the text, a name that is made an identifier has none, and what is written as it
is has its own. Around these texts each block of an artifact closes what it opens.
-/

namespace EventContract

open Text

variable {field : Field} {event : Event} {schema : Schema} {source text parameter : String}
  {before after : List Char}

/-- The texts that a field is written with are balanced. -/
structure BalancedField (field : Field) : Prop where
  name : IsBalanced field.name
  description : IsBalanced field.description
  allowed : ∀ values ∈ field.allowed, ∀ value ∈ values, IsBalanced value

structure BalancedEvent (event : Event) : Prop where
  name : IsBalanced event.name
  description : IsBalanced event.description
  payload : ∀ field ∈ event.payload, BalancedField field

/-- Every text of a schema and of the settings that is written into an artifact is balanced. The
names of the files need not be: a header is guarded by an identifier made from one. -/
structure BalancedTexts (schema : Schema) (options : Options) (source : String) : Prop where
  endpoint : IsBalanced schema.endpoint
  events : ∀ event ∈ schema.events, BalancedEvent event
  source : IsBalanced source
  enclosing : IsBalanced options.emission.enclosing
  transportInclude : IsBalanced options.emission.transportInclude
  jsonInclude : IsBalanced options.emission.jsonInclude
  configModule : IsBalanced options.consumption.configModule
  baseUrlSymbol : IsBalanced options.consumption.baseUrlSymbol

/-! ## What becomes of a text -/

theorem Name.brackets_of_isIdentifier (h : isIdentifier text = true) : brackets text = [] :=
  filter_isBracket_eq_nil (by decide) (isIdentifierChar_of_mem h)

theorem Name.isBalanced_of_isIdentifier (h : isIdentifier text = true) : IsBalanced text :=
  isBalanced_of_brackets_eq_nil (brackets_of_isIdentifier h)

theorem Emission.filter_isBracket_literalChar {c : Char} (h : ¬ isBracket c) :
    (literalChar c).filter isBracket = [] := by
  have hdigit (n : Nat) : isBracket (octalDigit n) = false := by
    have hall : ∀ k < 8, isBracket (Nat.digitChar k) = false := by decide
    exact hall _ (Nat.mod_lt _ (by decide))
  unfold literalChar
  split_ifs <;> simp +decide [hdigit, h]

theorem Emission.brackets_literal (text : String) : brackets (literal text) = brackets text := by
  rw [brackets, literal, String.toList_ofList, literalChars, List.filter_cons_of_neg (by decide),
    List.filter_append,
    filter_isBracket_flatMap (by decide) (fun _ => filter_isBracket_literalChar)]
  exact List.append_nil _

theorem Emission.isBalanced_literal (h : IsBalanced text) : IsBalanced (literal text) :=
  h.of_brackets_eq (brackets_literal text)

theorem Json.Quoted.filter_isBracket_encodeChar {c : Char} (h : ¬ isBracket c) :
    (encodeChar c).filter isBracket = [] := by
  have hdigit : ∀ k < 16, isBracket (hexDigit k) = false := by decide
  unfold encodeChar
  by_cases hcontrol : c.toNat < 0x20
  · have hhigh := hdigit (c.toNat / 16) (by omega)
    have hlow := hdigit (c.toNat % 16) (by omega)
    split_ifs <;> simp +decide [hhigh, hlow]
  · split_ifs <;> simp +decide [h]

theorem Json.Quoted.brackets_quote (text : String) : brackets (quote text) = brackets text := by
  rw [brackets, quote, String.toList_ofList, encode, List.filter_cons_of_neg (by decide),
    List.filter_append,
    filter_isBracket_flatMap (by decide) (fun _ => filter_isBracket_encodeChar)]
  exact List.append_nil _

theorem Consumption.isBalanced_literal (h : IsBalanced text) : IsBalanced (literal text) :=
  h.of_brackets_eq (Json.Quoted.brackets_quote text)

theorem Consumption.isBalanced_propertyKey (h : IsBalanced text) :
    IsBalanced (propertyKey text) := by
  unfold propertyKey
  split
  · exact h
  · exact isBalanced_literal h

theorem isBalanced_banner (h : IsBalanced source) : IsBalanced (unlines (banner source)) := by
  apply isBalanced_unlines
  simp only [banner, List.forall_mem_cons]
  exact ⟨.between (by decide) h (by decide), by decide, by decide⟩

/-! ## The emission header -/

namespace Emission

theorem brackets_commentLine (text : String) : brackets (commentLine text) = brackets text := by
  unfold commentLine
  simp only
  split
  next hempty =>
    rw [← brackets_trimmedEnd text, String.isEmpty_iff.mp hempty]
    decide
  next =>
    rw [brackets_append, brackets_trimmedEnd]
    rfl

theorem isBalanced_summary (h : BalancedEvent event) : IsBalanced (unlines (summary event)) := by
  unfold summary
  split
  next =>
    apply isBalanced_unlines
    rw [List.forall_mem_singleton]
    exact .between (by decide) h.name (by decide)
  next =>
    -- The lines of a description need not be balanced one by one, so they are taken together.
    refine h.description.of_brackets_eq ?_
    rw [brackets_unlines, List.flatMap_map, funext brackets_commentLine,
      flatMap_brackets_commentLines]

theorem isBalanced_parameterDoc (hfield : BalancedField field)
    (hparameter : Name.isIdentifier parameter = true) :
    IsBalanced (parameterDoc field parameter) := by
  refine hfield.description.of_brackets_eq ?_
  rw [parameterDoc, brackets_commentLine, brackets_append, brackets_append, brackets_append,
    Name.brackets_of_isIdentifier hparameter, brackets_joined (by decide),
    flatMap_brackets_commentLines]
  rfl

theorem isBalanced_documentation (h : BalancedEvent event) :
    IsBalanced (unlines (documentation event)) := by
  have hparameters : IsBalanced (unlines ((parameters event).map
      fun entry => parameterDoc entry.1 entry.2)) := by
    apply isBalanced_unlines
    rw [List.forall_mem_map]
    exact fun entry hentry => isBalanced_parameterDoc (h.payload _ (List.of_mem_zip hentry).1)
      (isIdentifier_of_mem_parameters hentry)
  have hgap : IsBalanced (unlines (if event.payload.isEmpty then [] else [" *"])) := by
    split <;> exact isBalanced_unlines (by decide)
  simp only [documentation, unlines_append]
  exact ((((isBalanced_unlines (by decide)).append (isBalanced_summary h)).append hgap).append
    hparameters).append (isBalanced_unlines (by decide))

theorem brackets_declaration (hparameter : Name.isIdentifier parameter = true) :
    brackets (declaration field parameter) = [] := by
  have htype : brackets field.type.inEmission.text = [] := by cases field.type <;> decide
  have hname := Name.brackets_of_isIdentifier hparameter
  change brackets (field.type.inEmission.parameter parameter) = []
  unfold TargetType.parameter
  split
  · simp only [brackets_append, htype, hname]
    rfl
  · simp only [brackets_append, htype, hname]
    rfl

/-- The list of parameters is closed, and the body is left open. -/
theorem turns_signature (event : Event) : Turns [] ['{'] (signature event) := by
  have hpublisher := Name.brackets_of_isIdentifier (Name.isIdentifier_publisher event.name)
  have hdeclarations : (parameters event).flatMap
      (fun entry => brackets (declaration entry.1 entry.2)) = [] :=
    List.flatMap_eq_nil_iff.mpr fun entry hentry =>
      brackets_declaration (isIdentifier_of_mem_parameters hentry)
  refine Turns.of_brackets_eq (show Turns [] ['{'] "() \x7b" by decide) ?_
  have hseparator : brackets ", " = [] := by decide
  simp only [signature, brackets_append, hpublisher, brackets_joined hseparator, List.flatMap_map,
    hdeclarations]
  rfl

theorem isBalanced_assignment (hname : IsBalanced field.name)
    (hparameter : Name.isIdentifier parameter = true) :
    IsBalanced (assignment field parameter) := by
  have hopen : Turns [] ['['] "    payload[" := by decide
  have hkey := isBalanced_literal hname
  have hclose : Turns ['['] [] "] = " := by decide
  have hvalue := Name.isBalanced_of_isIdentifier hparameter
  exact (((hopen.append (hkey.turns _)).append hclose).append hvalue).append (by decide)

theorem isBalanced_broadcast (h : IsBalanced event.name) : IsBalanced (broadcast event) := by
  have hopen : Turns [] ['('] "    Broadcast(" := by decide
  exact (hopen.append ((isBalanced_literal h).turns _)).append (by decide)

theorem isBalanced_function (h : BalancedEvent event) : IsBalanced (unlines (function event)) := by
  have hopening : Turns [] ['{'] (unlines
      [signature event, "    nlohmann::json payload = nlohmann::json::object();"]) :=
    (turns_signature event).cons_unlines ((isBalanced_unlines (by decide)).turns _)
  have hassignments : IsBalanced (unlines ((parameters event).map
      fun entry => assignment entry.1 entry.2)) := by
    apply isBalanced_unlines
    rw [List.forall_mem_map]
    exact fun entry hentry => isBalanced_assignment (h.payload _ (List.of_mem_zip hentry).1).name
      (isIdentifier_of_mem_parameters hentry)
  have hbrace : Turns ['{'] [] "\x7d" := by decide
  have hclosing : Turns ['{'] [] (unlines [broadcast event, "\x7d", ""]) :=
    (isBalanced_broadcast h.name).cons_unlines
      (hbrace.cons_unlines (isBalanced_unlines (by decide)))
  rw [function, unlines_append, unlines_append, unlines_append]
  exact ((Turns.append (isBalanced_documentation h) hopening).append (hassignments.turns _)).append
    hclosing

theorem isBalanced_guardOpening (options : Options) :
    IsBalanced (unlines (guardOpening options)) := by
  have hname := Name.isBalanced_of_isIdentifier (isIdentifier_guardName options.outputName)
  apply isBalanced_unlines
  unfold guardOpening
  split
  next => decide
  next =>
    simp only [List.forall_mem_cons]
    exact ⟨.append (by decide) hname, .append (by decide) hname, by decide⟩

theorem isBalanced_guardClosing (options : Options) :
    IsBalanced (unlines (guardClosing options)) := by
  have hname := Name.isBalanced_of_isIdentifier (isIdentifier_guardName options.outputName)
  apply isBalanced_unlines
  unfold guardClosing
  split
  next => decide
  next =>
    simp only [List.forall_mem_cons]
    exact ⟨by decide, .append (by decide) hname, by decide⟩

theorem isBalanced_includes {options : Options} (htransport : IsBalanced options.transportInclude)
    (hjson : IsBalanced options.jsonInclude) : IsBalanced (unlines (includes options)) := by
  apply isBalanced_unlines
  simp only [includes, List.forall_mem_cons]
  exact ⟨by decide, by decide, by decide, .between (by decide) hjson (by decide), by decide,
    .between (by decide) htransport (by decide), by decide⟩

theorem isBalanced_headerText {options : EventContract.Options}
    (h : BalancedTexts schema options source) :
    IsBalanced (headerText schema options.emission source) := by
  have hbanner : IsBalanced (unlines (banner source)) := isBalanced_banner h.source
  have hempty : IsBalanced (unlines [""]) := isBalanced_unlines (by decide)
  have hincludes := isBalanced_includes h.transportInclude h.jsonInclude
  have hopening : Turns [] ['{']
      (unlines ["namespace " ++ options.emission.enclosing ++ " \x7b", ""]) := by
    have hname := IsBalanced.append (show IsBalanced "namespace " by decide) h.enclosing
    have hbrace : Turns [] ['{'] " \x7b" := by decide
    exact (Turns.append hname hbrace).cons_unlines (hempty.turns _)
  have hfunctions : IsBalanced (unlines (schema.events.flatMap function)) :=
    isBalanced_unlines_flatMap fun event hevent => isBalanced_function (h.events event hevent)
  have hclosing : Turns ['{'] []
      (unlines ["\x7d  // namespace " ++ options.emission.enclosing]) := by
    have hbrace : Turns ['{'] [] "\x7d  // namespace " := by decide
    exact (hbrace.append h.enclosing).cons_unlines (isBalanced_unlines (by decide))
  have hfront := (((hbanner.append hempty).append (isBalanced_guardOpening options.emission)).append
    hincludes).turns []
  rw [headerText, headerLines]
  simp only [unlines_append]
  exact (((hfront.append hopening).append (hfunctions.turns _)).append hclosing).append
    (isBalanced_guardClosing options.emission)

end Emission

/-! ## The consumption module -/

namespace Consumption

/-! ## The text that does not depend on a schema -/

theorem turns_unlines_of_eq_map {ls : List String} {css : List (List Char)}
    (h : ls = css.map String.ofList)
    (hcss : (css.flatMap (· ++ ['\n'])).foldlM takeBracket before = some after) :
    Turns before after (unlines ls) := by
  rw [Turns, h, toList_unlines_map_ofList, hcss]

-- Each line is matched with `String.ofList` here; taking a line apart in the kernel is slow.

theorem isBalanced_connectionTypes : IsBalanced (unlines connectionTypes) := by
  apply turns_unlines_of_eq_map
  · repeat apply map_ofList_cons
    exact map_ofList_nil
  · decide +kernel

theorem isBalanced_connectionScript : IsBalanced (unlines connectionScript.lines) := by
  rw [lines_connectionScript]
  apply turns_unlines_of_eq_map
  · repeat apply map_ofList_cons
    exact map_ofList_nil
  · decide +kernel

theorem isBalanced_clientText : IsBalanced (unlines clientText) := by
  apply turns_unlines_of_eq_map
  · repeat apply map_ofList_cons
    exact map_ofList_nil
  · decide +kernel

/-! ## One interface -/

theorem brackets_marginLine {indent : String} (hindent : brackets indent = []) (line : String) :
    brackets (marginLine indent line) = brackets line := by
  unfold marginLine
  split
  next hempty =>
    rw [String.isEmpty_iff.mp hempty, brackets_append, hindent]
    rfl
  next =>
    rw [brackets_append, brackets_append, hindent]
    rfl

theorem brackets_docComment {indent : String} (hindent : brackets indent = []) (text : String) :
    brackets (unlines (docComment indent text)) = brackets text := by
  rw [docComment_eq, ← flatMap_brackets_commentLines text]
  split
  next hnone =>
    rw [hnone]
    rfl
  next line heq =>
    rw [heq, brackets_unlines, List.flatMap_singleton, List.flatMap_singleton, brackets_append,
      brackets_append, brackets_append, hindent]
    exact List.append_nil _
  next =>
    rw [brackets_unlines, List.flatMap_cons, List.flatMap_append, List.flatMap_map,
      funext (brackets_marginLine hindent), List.flatMap_singleton, brackets_append,
      brackets_append, hindent]
    exact List.append_nil _

theorem isBalanced_docComment {indent : String} (hindent : brackets indent = [])
    (h : IsBalanced text) : IsBalanced (unlines (docComment indent text)) :=
  h.of_brackets_eq (brackets_docComment hindent text)

theorem isBalanced_type (h : BalancedField field) :
    IsBalanced (field.typeFor .consumption).text := by
  have hplain : IsBalanced field.type.inConsumption.text := by cases field.type <;> decide
  simp only [Field.typeFor]
  split
  next value more heq =>
    apply IsBalanced.joined (by decide)
    rw [List.forall_mem_map]
    exact fun value hvalue => isBalanced_literal (h.allowed _ heq value hvalue)
  next => exact hplain

theorem isBalanced_property (h : BalancedField field) : IsBalanced (property field) := by
  have hkey := isBalanced_propertyKey h.name
  exact ((IsBalanced.between (by decide) hkey (by decide)).append (isBalanced_type h)).append
    (by decide)

theorem isBalanced_payloadInterface (h : BalancedEvent event) :
    IsBalanced (unlines (payloadInterface event)) := by
  have hsummary : IsBalanced (summary event) := by
    unfold summary
    split
    · exact .between (by decide) h.name (by decide)
    · exact h.description
  have hheading : Turns [] ['{']
      (unlines ["export interface " ++ Name.payloadType event.name ++ " \x7b"]) := by
    have hname := Name.isBalanced_of_isIdentifier (Name.isIdentifier_payloadType event.name)
    have hfront := IsBalanced.append (show IsBalanced "export interface " by decide) hname
    have hbrace : Turns [] ['{'] " \x7b" := by decide
    exact (Turns.append hfront hbrace).cons_unlines ((isBalanced_unlines (by decide)).turns _)
  have hbody : IsBalanced (unlines (interfaceBody event.payload)) := by
    apply isBalanced_unlines_flatMap
    intro field hfield
    rw [unlines_append]
    have hproperty := isBalanced_property (h.payload field hfield)
    exact (isBalanced_docComment (by decide) (h.payload field hfield).description).append
      (isBalanced_unlines (List.forall_mem_singleton.mpr hproperty))
  have hclosing : Turns ['{'] [] (unlines ["\x7d", ""]) := by
    have hbrace : Turns ['{'] [] "\x7d" := by decide
    exact hbrace.cons_unlines (isBalanced_unlines (by decide))
  rw [payloadInterface, unlines_append, unlines_append, unlines_append]
  exact ((Turns.append (isBalanced_docComment (by decide) hsummary) hheading).append
    (hbody.turns _)).append hclosing

/-! ## The whole module -/

theorem isBalanced_endpointSection {options : Options} (hendpoint : IsBalanced schema.endpoint)
    (hmodule : IsBalanced options.configModule) (hsymbol : IsBalanced options.baseUrlSymbol) :
    IsBalanced (unlines (endpointSection schema options)) := by
  have himport : IsBalanced ("import \x7b " ++ options.baseUrlSymbol ++ " \x7d from " ++
      literal options.configModule ++ ";") := by
    have hopen : Turns [] ['{'] "import \x7b " := by decide
    have hclose : Turns ['{'] [] " \x7d from " := by decide
    exact (((hopen.append (hsymbol.turns _)).append hclose).append
      (isBalanced_literal hmodule)).append (by decide)
  apply isBalanced_unlines
  simp only [endpointSection, List.forall_mem_cons]
  exact ⟨himport, by decide, by decide,
    .between (by decide) (isBalanced_literal hendpoint) (by decide), by decide, by decide,
    .between (by decide) hsymbol (by decide), by decide⟩

theorem isBalanced_sectionTitle {title : String} (h : IsBalanced title) :
    IsBalanced (unlines (sectionTitle title)) := by
  apply isBalanced_unlines
  simp only [sectionTitle, List.forall_mem_cons]
  exact ⟨by decide +kernel, .append (by decide) h, by decide +kernel, by decide⟩

theorem isBalanced_unionType {literals : List String} (h : ∀ text ∈ literals, IsBalanced text) :
    IsBalanced (unionType literals) := by
  unfold unionType
  split
  · decide
  · exact .joined (by decide) h

theorem isBalanced_mapEntry (h : IsBalanced event.name) : IsBalanced (mapEntry event) := by
  have hkey := isBalanced_propertyKey h
  have htype := Name.isBalanced_of_isIdentifier (Name.isIdentifier_payloadType event.name)
  exact ((IsBalanced.between (by decide) hkey (by decide)).append htype).append (by decide)

theorem isBalanced_nameSection (h : ∀ event ∈ schema.events, BalancedEvent event) :
    IsBalanced (unlines (nameSection schema)) := by
  have hliterals : ∀ text ∈ nameLiterals schema, IsBalanced text := by
    simp only [nameLiterals, Schema.eventNames, List.forall_mem_map]
    exact fun event hevent => isBalanced_literal (h event hevent).name
  have hunion := isBalanced_unionType hliterals
  have hnames : IsBalanced ("export const EVENT_NAMES: readonly EventName[] = [" ++
      joined ", " (nameLiterals schema) ++ "];") := by
    have hopen : Turns [] ['['] "export const EVENT_NAMES: readonly EventName[] = [" := by decide
    have hlist : IsBalanced (joined ", " (nameLiterals schema)) := .joined (by decide) hliterals
    exact (hopen.append (hlist.turns _)).append (by decide)
  have hentries : IsBalanced (unlines (schema.events.map mapEntry)) := by
    apply isBalanced_unlines
    rw [List.forall_mem_map]
    exact fun event hevent => isBalanced_mapEntry (h event hevent).name
  have hopen : Turns [] ['{'] "export interface EventPayloadMap \x7b" := by decide
  have hempty : IsBalanced (unlines []) := by decide
  rw [nameSection, unlines_append, unlines_append]
  refine Turns.append (Turns.append ?_ (hentries.turns ['{'])) ?_
  · refine IsBalanced.cons_unlines (by decide) ?_
    refine IsBalanced.cons_unlines (.between (by decide) hunion (by decide)) ?_
    refine IsBalanced.cons_unlines (by decide) ?_
    refine IsBalanced.cons_unlines hnames ?_
    refine IsBalanced.cons_unlines (by decide) ?_
    refine IsBalanced.cons_unlines (by decide) ?_
    exact hopen.cons_unlines (hempty.turns _)
  · apply turns_unlines_of_eq_map
    · repeat apply map_ofList_cons
      exact map_ofList_nil
    · decide +kernel

theorem isBalanced_defaultBackoff (backoff : Client.Backoff) :
    IsBalanced (unlines (defaultBackoff backoff)) := by
  refine Turns.of_brackets_eq (show Turns [] [] "\x7b\x7d" by decide) ?_
  simp only [defaultBackoff, brackets_unlines, List.flatMap_cons, brackets_append,
    brackets_toString]
  decide +kernel

theorem isBalanced_moduleText {options : EventContract.Options}
    (h : BalancedTexts schema options source) :
    IsBalanced (moduleText schema options.consumption source) := by
  have hempty : IsBalanced (unlines [""]) := isBalanced_unlines (by decide)
  have hpayloads : IsBalanced (unlines (schema.events.flatMap payloadInterface)) :=
    isBalanced_unlines_flatMap fun event hevent =>
      isBalanced_payloadInterface (h.events event hevent)
  have hendpoint := isBalanced_endpointSection h.endpoint h.configModule h.baseUrlSymbol
  rw [moduleText, moduleLines]
  simp only [unlines_append]
  exact ((((((((((((isBalanced_banner h.source).append hempty).append hendpoint).append
    (isBalanced_sectionTitle (by decide))).append hpayloads).append
    (isBalanced_sectionTitle (by decide))).append (isBalanced_nameSection h.events)).append
    (isBalanced_sectionTitle (by decide))).append isBalanced_connectionTypes).append
    (isBalanced_defaultBackoff _)).append isBalanced_connectionScript).append
    (isBalanced_sectionTitle (by decide))).append isBalanced_clientText

end Consumption

/-! ## Both artifacts -/

/-- Where the texts of a schema and of the settings are balanced, so is each artifact: every closing
bracket belongs to the innermost open one, and none is left open. -/
theorem artifacts_stay_balanced {options : Options} (h : BalancedTexts schema options source) :
    IsBalanced (Emission.headerText schema options.emission source) ∧
      IsBalanced (Consumption.moduleText schema options.consumption source) :=
  ⟨Emission.isBalanced_headerText h, Consumption.isBalanced_moduleText h⟩

/-- Brackets in every text: closed on a later line of a description, next to a closing mark, in keys
that are quoted and in restricted values. -/
def bracketed : Schema where
  endpoint := "/events/\x7bid\x7d"
  events :=
    [⟨"list[0]", "First (over\n[several]*/\nlines).  ",
        [⟨"item(s)", .string, "One of \x7b\n  a, b \x7d", some ["f(\"x\")", "[\t]"]⟩,
          ⟨"class", .numberList, "", none⟩]⟩,
      ⟨"(blank)", " ", []⟩]

/-- The name of the header has a bracket that is left open. -/
def bracketedOptions : Options where
  emission := ⟨"odd(.hpp", "Events", "EventServer[1].hpp", "nlohmann/json.hpp", .defined⟩
  consumption := ⟨"events.ts", "./config(1)", "API_BASE_URL", Client.Backoff.default⟩

theorem artifacts_stay_balanced_bracketed :
    BalancedTexts bracketed bracketedOptions "schema (1).yaml" ∧
      IsBalanced (Emission.headerText bracketed bracketedOptions.emission "schema (1).yaml") ∧
      IsBalanced
        (Consumption.moduleText bracketed bracketedOptions.consumption "schema (1).yaml") := by
  have hevents : ∀ event ∈ bracketed.events, BalancedEvent event := by
    simp only [bracketed, List.forall_mem_cons]
    refine ⟨⟨by decide, by decide, ?_⟩, ⟨by decide, by decide, by simp⟩, by simp⟩
    simp only [List.forall_mem_cons]
    exact ⟨⟨by decide, by decide, by decide⟩, ⟨by decide, by decide, by simp⟩, by simp⟩
  have h : BalancedTexts bracketed bracketedOptions "schema (1).yaml" :=
    ⟨by decide, hevents, by decide, by decide, by decide, by decide, by decide, by decide⟩
  exact ⟨h, artifacts_stay_balanced h⟩

end EventContract
