import EventContract.Emission.Header
import EventContract.Proofs.LiteralText
import EventContract.Proofs.ParameterNames

/-! # The code of an emission header

The lines of a header that publish something, told apart by what they begin with. Comments,
includes and guards never begin that way, whatever texts stand in them, so those lines are the
functions' own, in the order of the schema.
-/

namespace EventContract.Emission

open Text

variable {event : Event} {line name source : String} {schema : Schema} {options : Options}

/-! ## Lines of code -/

/-- What the lines of code begin with: a signature, an assignment, the call that sends. -/
def codeMarks : List String := ["inline void ", "    payload[", "    Broadcast("]

def IsCode (line : String) : Prop := ∃ mark ∈ codeMarks, Opens mark line

instance : DecidablePred IsCode :=
  fun line => inferInstanceAs (Decidable (∃ mark ∈ codeMarks, Opens mark line))

/-- The lines of code among the lines of a header. -/
def codeOf (ls : List String) : List String := ls.filter fun line => IsCode line

/-- The code that publishes an event: a signature with one parameter for each field in order, an
assignment of each parameter to the key of its field in the same order, and one call that sends. -/
def Publishes (event : Event) (code : List String) : Prop :=
  ∃ names : List String, names.length = event.payload.length ∧ names.Nodup ∧
    code =
      ["inline void Emit" ++ Name.pascal event.name ++ "(" ++
        joined ", " (event.payload.zipWith
          (fun field name => (field.typeFor .emission).parameter name) names) ++ ") \x7b"] ++
      event.payload.zipWith
        (fun field name => "    payload[" ++ literal field.name ++ "] = " ++ name ++ ";") names ++
      ["    Broadcast(" ++ literal event.name ++ ", payload);"]

theorem reads_code {ls : List String} (h : ∀ line ∈ ls, OneLine line ∧ IsCode line) :
    Reads codeOf ls ls := by
  refine ⟨fun line hline => (h line hline).1, fun rest => ?_⟩
  have hcode : ls.filter (fun line => IsCode line) = ls :=
    List.filter_eq_self.mpr fun line hline => decide_eq_true (h line hline).2
  rw [codeOf, List.filter_append, hcode, codeOf]

theorem reads_quiet {ls : List String} (h : ∀ line ∈ ls, OneLine line ∧ ¬ IsCode line) :
    Reads codeOf ls [] := by
  refine Reads.passed fun line hline => ⟨(h line hline).1, fun rest => ?_⟩
  exact List.filter_cons_of_neg (by simpa using (h line hline).2)

/-! ## One function -/

theorem quiet_commentLine {text : String} (h : OneLine text) :
    OneLine (commentLine text) ∧ ¬ IsCode (commentLine text) := by
  have htrimmed := oneLine_trimmedEnd h
  unfold commentLine
  simp only
  split
  · exact ⟨by decide, by simp [IsCode, codeMarks, Opens]⟩
  · exact ⟨OneLine.append (by decide) htrimmed, by simp [IsCode, codeMarks, Opens]⟩

theorem isIdentifier_of_mem_parameters {entry : Field × String} (h : entry ∈ parameters event) :
    Name.isIdentifier entry.2 = true :=
  isIdentifier_of_mem_parameterNamesFrom (List.of_mem_zip h).2

theorem oneLine_of_mem_parameters {entry : Field × String} (h : entry ∈ parameters event) :
    OneLine entry.2 :=
  Name.oneLine_of_isIdentifier (isIdentifier_of_mem_parameters h)

/-- The documentation of a function has no code, whatever the descriptions. A blank description is
replaced by a line with the event's name, which then has to be on one line. -/
theorem reads_documentation (hname : isAllBlank event.description.toList → OneLine event.name) :
    Reads codeOf (documentation event) [] := by
  have hsummary : ∀ line ∈ summary event, OneLine line ∧ ¬ IsCode line := by
    unfold summary
    split
    next hnone =>
      -- The only text of the schema that is not split into lines before it is written.
      have hone := hname (commentLines_eq_nil_iff.mp hnone)
      rw [List.forall_mem_singleton]
      refine ⟨?_, by simp [IsCode, codeMarks, Opens]⟩
      exact OneLine.between (by decide) hone (by decide)
    next =>
      intro line hline
      obtain ⟨text, htext, rfl⟩ := List.mem_map.mp hline
      exact quiet_commentLine (oneLine_of_mem_commentLines htext)
  have hparameters : ∀ entry ∈ parameters event,
      OneLine (parameterDoc entry.1 entry.2) ∧ ¬ IsCode (parameterDoc entry.1 entry.2) := by
    intro entry hentry
    have hdescription : OneLine (joined " " (commentLines entry.1.description)) :=
      OneLine.joined (by decide) fun text htext => oneLine_of_mem_commentLines htext
    apply quiet_commentLine
    exact (OneLine.between (by decide) (oneLine_of_mem_parameters hentry) (by decide)).append
      hdescription
  apply reads_quiet
  unfold documentation
  simp only [List.forall_mem_append, List.forall_mem_map]
  -- What is left are the fixed lines between the texts.
  refine ⟨⟨⟨⟨?_, hsummary⟩, ?_⟩, hparameters⟩, ?_⟩
  · decide
  · split <;> decide
  · decide

/-- The lines of code of a function. -/
def functionCode (event : Event) : List String :=
  [signature event] ++ (parameters event).map (fun entry => assignment entry.1 entry.2) ++
    [broadcast event]

theorem oneLine_declaration {field : Field} (h : OneLine name) :
    OneLine (declaration field name) := by
  have htype := field.oneLine_typeFor .emission
  unfold declaration TargetType.parameter
  split
  · exact (OneLine.between (by decide) htype (by decide)).append h
  · exact (htype.append (by decide)).append h

theorem reads_signature (event : Event) :
    Reads codeOf [signature event, "    nlohmann::json payload = nlohmann::json::object();"]
      [signature event] := by
  have hdeclarations : OneLine
      (joined ", " ((parameters event).map fun entry => declaration entry.1 entry.2)) := by
    apply OneLine.joined (by decide)
    rw [List.forall_mem_map]
    exact fun entry hentry => oneLine_declaration (oneLine_of_mem_parameters hentry)
  have hpublisher : OneLine (Name.publisher event.name) :=
    OneLine.append (by decide) (Name.oneLine_of_isIdentifier (Name.isIdentifier_pascal _))
  have hsignature : Reads codeOf [signature event] [signature event] := by
    apply reads_code
    rw [List.forall_mem_singleton]
    refine ⟨?_, "inline void ", by decide,
      (((opens_append _ _).append _).append _).append _⟩
    exact ((OneLine.between (by decide) hpublisher (by decide)).append
      hdeclarations).append (by decide)
  exact hsignature.append (reads_quiet (by decide))

theorem reads_assignments (event : Event) :
    Reads codeOf ((parameters event).map fun entry => assignment entry.1 entry.2)
      ((parameters event).map fun entry => assignment entry.1 entry.2) := by
  apply reads_code
  rw [List.forall_mem_map]
  intro entry hentry
  refine ⟨?_, "    payload[", by decide, (((opens_append _ _).append _).append _).append _⟩
  exact ((OneLine.between (by decide) (oneLine_literal entry.1.name) (by decide)).append
    (oneLine_of_mem_parameters hentry)).append (by decide)

theorem reads_broadcast (event : Event) :
    Reads codeOf [broadcast event, "\x7d", ""] [broadcast event] := by
  have hbroadcast : Reads codeOf [broadcast event] [broadcast event] := by
    apply reads_code
    rw [List.forall_mem_singleton]
    refine ⟨?_, "    Broadcast(", by decide, (opens_append _ _).append _⟩
    exact OneLine.between (by decide) (oneLine_literal event.name) (by decide)
  exact hbroadcast.append (reads_quiet (by decide))

theorem reads_function (hname : isAllBlank event.description.toList → OneLine event.name) :
    Reads codeOf (function event) (functionCode event) :=
  (((reads_documentation hname).append (reads_signature event)).append
    (reads_assignments event)).append (reads_broadcast event)

theorem publishes_functionCode (event : Event) : Publishes event (functionCode event) := by
  have hlength : (parameterNames (event.payload.map Field.name)).length =
      event.payload.length := by
    rw [parameterNames, length_parameterNamesFrom, List.length_map]
  -- The name of a function is written in two parts.
  have hname : "inline void " ++ Name.publisher event.name =
      "inline void Emit" ++ Name.pascal event.name := by
    rw [Name.publisher, ← String.append_assoc]
    rfl
  refine ⟨parameterNames (event.payload.map Field.name), hlength, nodup_parameterNamesFrom _ _, ?_⟩
  simp only [functionCode, signature, broadcast, parameters, List.map_zip_eq_zipWith, hname]
  rfl

/-! ## The whole header -/

theorem isIdentifier_guardName (outputName : String) :
    Name.isIdentifier (guardName outputName) = true := by
  rw [guardName, Name.isIdentifier, String.toList_ofList]
  apply Name.isIdentifierChars_guardFront
  rw [List.all_map, List.all_eq_true]
  intro c _
  rw [Function.comp_apply]
  split
  next hc => simp [Name.isIdentifierChar, Name.isAlphanumeric_toUpper hc]
  next => decide

theorem oneLine_guardName (outputName : String) : OneLine (guardName outputName) :=
  Name.oneLine_of_isIdentifier (isIdentifier_guardName outputName)

theorem reads_guardOpening (options : Options) : Reads codeOf (guardOpening options) [] := by
  have hname := oneLine_guardName options.outputName
  apply reads_quiet
  unfold guardOpening
  split
  next => decide
  next =>
    simp only [List.forall_mem_cons]
    refine ⟨⟨OneLine.append (by decide) hname, by simp [IsCode, codeMarks, Opens]⟩,
      ⟨OneLine.append (by decide) hname, by simp [IsCode, codeMarks, Opens]⟩, by decide⟩

theorem reads_guardClosing (options : Options) : Reads codeOf (guardClosing options) [] := by
  have hname := oneLine_guardName options.outputName
  apply reads_quiet
  unfold guardClosing
  split
  next => decide
  next =>
    simp only [List.forall_mem_cons]
    refine ⟨by decide, ⟨OneLine.append (by decide) hname, by simp [IsCode, codeMarks, Opens]⟩,
      by decide⟩

theorem codeOf_headerText (hsource : OneLine source) (henclosing : OneLine options.enclosing)
    (htransport : OneLine options.transportInclude) (hjson : OneLine options.jsonInclude)
    (hnames : ∀ event ∈ schema.events,
      isAllBlank event.description.toList → OneLine event.name) :
    codeOf (linesOf (headerText schema options source)) = schema.events.flatMap functionCode := by
  have hbanner : Reads codeOf (banner source ++ [""]) [] := by
    apply reads_quiet
    simp only [banner, List.forall_mem_append, List.forall_mem_cons]
    refine ⟨⟨⟨?_, by simp [IsCode, codeMarks, Opens]⟩, by decide, by simp⟩, by decide⟩
    exact OneLine.between (by decide) hsource (by decide)
  have hincludes : Reads codeOf (includes options) [] := by
    apply reads_quiet
    simp only [includes, List.forall_mem_cons]
    refine ⟨by decide, by decide, by decide, ⟨?_, by simp [IsCode, codeMarks, Opens]⟩, by decide,
      ⟨?_, by simp [IsCode, codeMarks, Opens]⟩, by decide⟩
    · exact OneLine.between (by decide) hjson (by decide)
    · exact OneLine.between (by decide) htransport (by decide)
  have hopening : Reads codeOf ["namespace " ++ options.enclosing ++ " \x7b", ""] [] := by
    apply reads_quiet
    simp only [List.forall_mem_cons]
    refine ⟨⟨?_, by simp [IsCode, codeMarks, Opens]⟩, by decide⟩
    exact OneLine.between (by decide) henclosing (by decide)
  have hfunctions : Reads codeOf (schema.events.flatMap function)
      (schema.events.flatMap functionCode) :=
    Reads.flatMap fun event hevent => reads_function (hnames event hevent)
  have hclosing : Reads codeOf ["\x7d  // namespace " ++ options.enclosing] [] := by
    apply reads_quiet
    rw [List.forall_mem_singleton]
    exact ⟨OneLine.append (by decide) henclosing, by simp [IsCode, codeMarks, Opens]⟩
  have hheader : Reads codeOf (headerLines schema options source) _ :=
    (((((hbanner.append (reads_guardOpening options)).append hincludes).append
      hopening).append hfunctions).append hclosing).append (reads_guardClosing options)
  have hread : codeOf (linesOf (headerText schema options source)) = _ := hheader.read_linesOf rfl
  simpa using hread

end EventContract.Emission
