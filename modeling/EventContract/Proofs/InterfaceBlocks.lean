import EventContract.Consumption.Module
import EventContract.Proofs.WrittenScript

/-! # The payload interfaces of a consumption module

A consumption module is read back line by line: each heading of a payload interface, with the
properties up to the closing brace. What is found are the interfaces of the events, in the order of
the schema. Neither a description nor anything that is the same in every module shows up as one.
-/

namespace EventContract.Consumption

open Text

variable {event : Event} {field : Field} {line indent text source : String} {schema : Schema}
  {options : Options}

/-! ## Reading interfaces -/

/-- The heading of an interface that describes a payload. -/
def IsHeading (line : String) : Prop :=
  Opens "export interface " line ∧ "Event \x7b".toList <:+ line.toList

instance : DecidablePred IsHeading := fun line =>
  inferInstanceAs (Decidable (Opens "export interface " line ∧ "Event \x7b".toList <:+ line.toList))

/-- A line of a comment inside an interface. -/
def IsComment (line : String) : Prop := Opens "  /**" line ∨ Opens "   *" line

instance : DecidablePred IsComment :=
  fun line => inferInstanceAs (Decidable (Opens "  /**" line ∨ Opens "   *" line))

/-- The headings among the lines, each with what is no comment up to a closing brace. -/
def interfaces : List String → List (String × List String)
  | [] => []
  | line :: rest =>
    if IsHeading line then
      (line, (rest.takeWhile (· ≠ "\x7d")).filter fun line => ¬ IsComment line) :: interfaces rest
    else interfaces rest

/-- The interface of an event: one property for each field, in order. -/
def interfaceOf (event : Event) : String × List String :=
  ("export interface " ++ Name.payloadType event.name ++ " \x7b",
    event.payload.map fun field =>
      "  " ++ propertyKey field.name ++ ": " ++ (field.typeFor .consumption).text ++ ";")

/-! ## Lines without a heading -/

/-- A line that is no heading. -/
def Quiet (line : String) : Prop := OneLine line ∧ ¬ IsHeading line

instance : DecidablePred Quiet :=
  fun line => inferInstanceAs (Decidable (OneLine line ∧ ¬ IsHeading line))

theorem reads_quiet {ls : List String} (h : ∀ line ∈ ls, Quiet line) : Reads interfaces ls [] :=
  Reads.passed fun line hline => ⟨(h line hline).1, fun rest => by
    rw [interfaces, if_neg (h line hline).2]⟩

theorem OpensNoInterface.quiet (h : OpensNoInterface line) : Quiet line :=
  ⟨h.1, fun hheading => h.2 hheading.1⟩

/-- What a heading ends with settles it for a line that is known by its characters. -/
theorem quiet_ofList {cs : List Char}
    (h : '\n' ∉ cs ∧ ¬ ['E', 'v', 'e', 'n', 't', ' ', '\x7b'] <:+ cs) :
    Quiet (String.ofList cs) := by
  refine ⟨oneLine_ofList.mpr h.1, fun hheading => h.2 ?_⟩
  rw [← String.toList_ofList (l := cs)]
  exact hheading.2

theorem quiet_ofList_cons {cs : List Char} {rest : List String}
    (h : '\n' ∉ cs ∧ ¬ ['E', 'v', 'e', 'n', 't', ' ', '\x7b'] <:+ cs)
    (hrest : ∀ line ∈ rest, Quiet line) : ∀ line ∈ String.ofList cs :: rest, Quiet line :=
  List.forall_mem_cons.mpr ⟨quiet_ofList h, hrest⟩

/-! ## Comments -/

/-- The lines of a comment begin with one of its marks, at its indentation. -/
theorem docComment_lines (hindent : OneLine indent) (text : String) :
    ∀ line ∈ docComment indent text,
      OneLine line ∧ (Opens (indent ++ "/**") line ∨ Opens (indent ++ " *") line) := by
  have hcomment : ∀ line ∈ commentLines text, OneLine line :=
    fun line hline => oneLine_of_mem_commentLines hline
  unfold docComment
  split
  next => simp
  next line heq =>
    have hline : OneLine line := hcomment line (by simp [heq])
    rw [List.forall_mem_singleton]
    refine ⟨((hindent.append (by decide)).append hline).append (by decide), .inl ?_⟩
    simp [Opens]
  next =>
    simp only [List.forall_mem_append, List.forall_mem_singleton, List.forall_mem_map]
    refine ⟨⟨⟨hindent.append (by decide), .inl (List.prefix_refl _)⟩, fun line hline => ?_⟩,
      hindent.append (by decide), .inr ?_⟩
    · split
      · exact ⟨hindent.append (by decide), .inr (List.prefix_refl _)⟩
      · refine ⟨(hindent.append (by decide)).append (hcomment line hline), .inr ?_⟩
        simp [Opens]
    · simp [Opens]

theorem quiet_docComment (text : String) : ∀ line ∈ docComment "" text, Quiet line := by
  intro line hline
  obtain ⟨honeLine, hopens⟩ := docComment_lines (by decide) text line hline
  refine ⟨honeLine, fun hheading => ?_⟩
  rcases hopens with hopens | hopens
  -- Neither mark begins with "export interface ", nor the other way round.
  · exact (hopens.or hheading.1).elim (by decide) (by decide)
  · exact (hopens.or hheading.1).elim (by decide) (by decide)

/-! ## One interface -/

/-- What stands between the heading of an interface and its closing brace. -/
def interfaceBody (payload : List Field) : List String :=
  payload.flatMap fun field => docComment "  " field.description ++ [property field]

theorem indented_property (field : Field) : Indented (property field) := by
  constructor
  · exact ((OneLine.between (by decide) (oneLine_propertyKey field.name) (by decide)).append
      (field.oneLine_typeFor .consumption)).append (by decide)
  · simp [Opens, property]

theorem not_isComment_property (field : Field) : ¬ IsComment (property field) := by
  obtain ⟨c, rest, hkey, hblank, hslash⟩ := propertyKey_front field.name
  simp [IsComment, Opens, property, hkey, Ne.symm hblank, Ne.symm hslash]

theorem isComment_docComment (text : String) :
    ∀ line ∈ docComment "  " text, Indented line ∧ IsComment line := by
  intro line hline
  obtain ⟨honeLine, hopens⟩ := docComment_lines (by decide) text line hline
  refine ⟨⟨honeLine, ?_⟩, hopens⟩
  rcases hopens with hopens | hopens
  · exact List.IsPrefix.trans (by decide) hopens
  · exact List.IsPrefix.trans (by decide) hopens

theorem indented_interfaceBody (payload : List Field) :
    ∀ line ∈ interfaceBody payload, Indented line := by
  simp only [interfaceBody, List.forall_mem_flatMap, List.forall_mem_append,
    List.forall_mem_singleton]
  exact fun field _ => ⟨fun line hline => (isComment_docComment field.description line hline).1,
    indented_property field⟩

/-- Without its comments an interface has its properties, in order. -/
theorem filter_interfaceBody (payload : List Field) :
    (interfaceBody payload).filter (fun line => ¬ IsComment line) = payload.map property := by
  induction payload with
  | nil => rfl
  | cons field rest ih =>
      have hdoc : (docComment "  " field.description).filter (fun line => ¬ IsComment line) = [] :=
        List.filter_eq_nil_iff.mpr fun line hline => by
          simpa using (isComment_docComment field.description line hline).2
      have hproperty : [property field].filter (fun line => ¬ IsComment line) = [property field] :=
        List.filter_cons_of_pos (by simpa using not_isComment_property field)
      have hbody : interfaceBody (field :: rest) =
          docComment "  " field.description ++ [property field] ++ interfaceBody rest := rfl
      rw [hbody, List.filter_append, List.filter_append, hdoc, hproperty, ih]
      rfl

theorem isHeading_payloadType (name : String) :
    IsHeading ("export interface " ++ Name.payloadType name ++ " \x7b") := by
  have hback : "export interface " ++ Name.payloadType name ++ " \x7b" =
      "export interface " ++ Name.pascal name ++ "Event \x7b" := by
    simp only [Name.payloadType, String.append_assoc]
    rfl
  refine ⟨(opens_append _ _).append _, ?_⟩
  rw [hback, String.toList_append]
  exact List.suffix_append _ _

/-- The body of an interface is what comes before the first closing brace, and holds no heading. -/
theorem reads_interfaceBlock (event : Event) :
    Reads interfaces (["export interface " ++ Name.payloadType event.name ++ " \x7b"] ++
      interfaceBody event.payload ++ ["\x7d", ""]) [interfaceOf event] := by
  have hbody := indented_interfaceBody event.payload
  have hinner : Reads interfaces (interfaceBody event.payload ++ ["\x7d", ""]) [] := by
    apply reads_quiet
    refine List.forall_mem_append.mpr ⟨fun line hline => ?_, by decide⟩
    exact (hbody line hline).opensNoInterface.quiet
  have hheading : OneLine ("export interface " ++ Name.payloadType event.name ++ " \x7b") :=
    (OneLine.append (by decide) ((Name.oneLine_of_isIdentifier (Name.isIdentifier_pascal _)).append
      (by decide))).append (by decide)
  refine ⟨?_, fun rest => ?_⟩
  · rw [List.append_assoc]
    exact List.forall_mem_append.mpr ⟨List.forall_mem_singleton.mpr hheading, hinner.oneLine⟩
  · -- The body is indented, so none of its lines is the brace that ends it.
    have hinside : ∀ line ∈ interfaceBody event.payload, decide (line ≠ "\x7d") = true := by
      intro line hline
      refine decide_eq_true ?_
      rintro rfl
      exact absurd (hbody _ hline).2 (by decide)
    have htake : (interfaceBody event.payload ++ ["\x7d", ""] ++ rest).takeWhile (· ≠ "\x7d") =
        interfaceBody event.payload := by
      rw [List.append_assoc, List.takeWhile_append_of_pos hinside]
      simp
    change interfaces (_ :: (interfaceBody event.payload ++ ["\x7d", ""] ++ rest)) = _
    rw [interfaces, if_pos (isHeading_payloadType event.name), htake, filter_interfaceBody,
      hinner.read_append rest]
    rfl

theorem reads_payloadInterface (event : Event) :
    Reads interfaces (payloadInterface event) [interfaceOf event] := by
  have hdoc := reads_quiet (quiet_docComment (summary event))
  have hlines : payloadInterface event = docComment "" (summary event) ++
      (["export interface " ++ Name.payloadType event.name ++ " \x7b"] ++
        interfaceBody event.payload ++ ["\x7d", ""]) := by
    simp only [payloadInterface, interfaceBody, List.append_assoc]
  rw [hlines]
  exact hdoc.append (reads_interfaceBlock event)

/-! ## The rest of the module -/

theorem quiet_sectionTitle {title : String} (h : OneLine title) :
    ∀ line ∈ sectionTitle title, Quiet line := by
  have hrule : Quiet
      "// ---------------------------------------------------------------------------" :=
    quiet_ofList (by decide +kernel)
  simp only [sectionTitle, List.forall_mem_cons]
  refine ⟨hrule, ⟨OneLine.append (by decide) h, by simp [IsHeading, Opens]⟩, hrule, by decide⟩

theorem oneLine_literals (schema : Schema) : ∀ text ∈ nameLiterals schema, OneLine text := by
  intro text htext
  obtain ⟨name, -, rfl⟩ := List.mem_map.mp htext
  exact Json.Quoted.oneLine_quote name

theorem quiet_nameSection (schema : Schema) : ∀ line ∈ nameSection schema, Quiet line := by
  have hliterals := oneLine_literals schema
  have hunion : OneLine (unionType (nameLiterals schema)) := by
    unfold unionType
    split
    · decide
    · exact .joined (by decide) hliterals
  have hentry (event : Event) : Quiet (mapEntry event) := by
    have htype : OneLine (Name.payloadType event.name) :=
      (Name.oneLine_of_isIdentifier (Name.isIdentifier_pascal _)).append (by decide)
    refine ⟨?_, by simp [mapEntry, IsHeading, Opens]⟩
    exact ((OneLine.between (by decide) (oneLine_propertyKey event.name) (by decide)).append
      htype).append (by decide)
  simp only [nameSection, List.forall_mem_append, List.forall_mem_map]
  refine ⟨⟨?_, fun event _ => hentry event⟩, ?_⟩
  · simp only [List.forall_mem_cons]
    refine ⟨by decide, ⟨?_, by simp [IsHeading, Opens]⟩, by decide,
      ⟨?_, by simp [IsHeading, Opens]⟩, by decide, by decide, by decide, by simp⟩
    · exact OneLine.between (by decide) hunion (by decide)
    · exact (OneLine.append (by decide) (.joined (by decide) hliterals)).append (by decide)
  · repeat refine quiet_ofList_cons (by decide +kernel) ?_
    exact List.forall_mem_nil _

theorem quiet_defaultBackoff (backoff : Client.Backoff) :
    ∀ line ∈ defaultBackoff backoff, Quiet line := by
  simp only [defaultBackoff, List.forall_mem_cons]
  refine ⟨⟨?_, by simp [IsHeading, Opens]⟩, by decide⟩
  exact ((OneLine.between (by decide) (oneLine_toString _) (by decide)).append
    (oneLine_toString _)).append (by decide)

theorem quiet_endpointSection (h : OneLine options.baseUrlSymbol) :
    ∀ line ∈ endpointSection schema options, Quiet line := by
  have hliteral (text : String) : OneLine (literal text) := Json.Quoted.oneLine_quote text
  simp only [endpointSection, List.forall_mem_cons]
  refine ⟨⟨?_, by simp [IsHeading, Opens]⟩, by decide, by decide, ⟨?_, by simp [IsHeading, Opens]⟩,
    by decide, by decide, ⟨?_, by simp [IsHeading, Opens]⟩, by decide⟩
  · exact ((OneLine.between (by decide) h (by decide)).append (hliteral _)).append
      (by decide)
  · exact OneLine.between (by decide) (hliteral _) (by decide)
  · exact OneLine.between (by decide) h (by decide)

theorem quiet_clientText : ∀ line ∈ connectionTypes ++ clientText, Quiet line := by
  simp only [clientText, List.forall_mem_append]
  refine ⟨?_, ⟨⟨⟨⟨⟨⟨⟨⟨⟨?_, ?_⟩, ?_⟩, ?_⟩, ?_⟩, ?_⟩, ?_⟩, ?_⟩, ?_⟩, ?_⟩⟩
  -- Matching a line with `String.ofList cs` gives its characters, which are quick to look through.
  all_goals
    repeat refine quiet_ofList_cons (by decide +kernel) ?_
    exact List.forall_mem_nil _

/-- The module declares the interfaces of the events and no further ones. -/
theorem interfaces_moduleText (hsource : OneLine source)
    (hsymbol : OneLine options.baseUrlSymbol) :
    interfaces (linesOf (moduleText schema options source)) = schema.events.map interfaceOf := by
  have hbanner : Reads interfaces (banner source ++ [""]) [] := by
    apply reads_quiet
    simp only [banner, List.forall_mem_append, List.forall_mem_cons]
    refine ⟨⟨⟨?_, by simp [IsHeading, Opens]⟩, by decide, by simp⟩, by decide⟩
    exact OneLine.between (by decide) hsource (by decide)
  have htitle (title : String) (h : OneLine title) : Reads interfaces (sectionTitle title) [] :=
    reads_quiet (quiet_sectionTitle h)
  have hpayloads : Reads interfaces (schema.events.flatMap payloadInterface)
      (schema.events.flatMap fun event => [interfaceOf event]) :=
    Reads.flatMap fun event _ => reads_payloadInterface event
  have hscript : Reads interfaces connectionScript.lines [] :=
    reads_quiet fun line hline => (plain_connectionScript.lines line hline).quiet
  have hfixed := List.forall_mem_append.mp quiet_clientText
  have hmodule : Reads interfaces (moduleLines schema options source) _ :=
    (((((((((((hbanner.append (reads_quiet (quiet_endpointSection hsymbol))).append
      (htitle _ (by decide))).append hpayloads).append (htitle _ (by decide))).append
      (reads_quiet (quiet_nameSection schema))).append (htitle _ (by decide))).append
      (reads_quiet hfixed.1)).append (reads_quiet (quiet_defaultBackoff options.backoff))).append
      hscript).append (htitle _ (by decide))).append (reads_quiet hfixed.2))
  have hread : interfaces (linesOf (moduleText schema options source)) = _ :=
    hmodule.read_linesOf rfl
  rw [List.map_eq_flatMap]
  simpa using hread

end EventContract.Consumption
