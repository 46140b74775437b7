import EventContract.Consumption.Connection
import EventContract.Proofs.LiteralText

/-! # Written scripts

The lines that a script is written in. Where its names are on one line each, so is every line, and
inside a function every line is indented.
-/

namespace EventContract.Consumption

open Text

variable {lead tail line : String} {level : Nat}

/-! ## Names on one line -/

mutual

/-- The names in an expression are on one line. Its texts may be anything. -/
def Expression.Plain : Expression → Prop
  | .name identifier => OneLine identifier
  | .text _ => True
  | .number _ => True
  | .member of key => of.Plain ∧ OneLine key
  | .binary _ left right => left.Plain ∧ right.Plain
  | .call function arguments => OneLine function ∧ Expression.PlainItems arguments
  | .record members => Expression.PlainMembers members
  | .list items => Expression.PlainItems items

def Expression.PlainItems : List Expression → Prop
  | [] => True
  | item :: rest => item.Plain ∧ Expression.PlainItems rest

def Expression.PlainMembers : List (String × Expression) → Prop
  | [] => True
  | (key, value) :: rest => OneLine key ∧ value.Plain ∧ Expression.PlainMembers rest

end

mutual

def Statement.Plain : Statement → Prop
  | .note text => OneLine text
  | .returns value => value.Plain
  | .when condition body => condition.Plain ∧ Statement.PlainBlock body

def Statement.PlainBlock : List Statement → Prop
  | [] => True
  | statement :: rest => statement.Plain ∧ Statement.PlainBlock rest

end

structure Constant.Plain (constant : Constant) : Prop where
  name : OneLine constant.name
  type : OneLine constant.type
  value : constant.value.Plain

structure Function.Plain (function : Function) : Prop where
  doc : ∀ text ∈ function.doc, OneLine text
  name : OneLine function.name
  parameters : ∀ parameter ∈ function.parameters, OneLine parameter.1 ∧ OneLine parameter.2
  result : OneLine function.result
  body : Statement.PlainBlock function.body

structure Script.Plain (script : Script) : Prop where
  constants : ∀ constant ∈ script.constants, constant.Plain
  functions : ∀ function ∈ script.functions, function.Plain

/-! ## Expressions -/

namespace Expression

mutual

theorem oneLine_flat : ∀ {value : Expression}, value.Plain → OneLine value.flat
  | .name _, h => h
  | .text value, _ => Json.Quoted.oneLine_quote value
  | .number value, _ => oneLine_toString value
  | .member of key, h => by
      rw [flat]
      exact ((oneLine_flat h.1).append (by decide)).append h.2
  | .binary op left right, h => by
      have hleft := oneLine_flat h.1
      have hright := oneLine_flat h.2
      have hsymbol : OneLine op.symbol := by cases op <;> decide
      have hwrapped {text : String} (htext : OneLine text) : OneLine ("(" ++ text ++ ")") :=
        OneLine.between (by decide) htext (by decide)
      rw [flat]
      refine (((OneLine.append ?_ (by decide)).append hsymbol).append (by decide)).append ?_
      · split
        · exact hwrapped hleft
        · exact hleft
      · split
        · exact hwrapped hright
        · exact hright
  | .call function arguments, h => by
      rw [flat]
      exact ((h.1.append (by decide)).append
        (.joined (by decide) (oneLine_flatItems h.2))).append (by decide)
  | .record members, h => by
      rw [flat]
      exact (OneLine.append (by decide) (.joined (by decide) (oneLine_flatMembers h))).append
        (by decide)
  | .list items, h => by
      rw [flat]
      exact (OneLine.append (by decide) (.joined (by decide) (oneLine_flatItems h))).append
        (by decide)

theorem oneLine_flatItems :
    ∀ {items : List Expression}, PlainItems items → ∀ text ∈ flatItems items, OneLine text
  | [], _ => by simp [flatItems]
  | item :: rest, h => List.forall_mem_cons.mpr ⟨oneLine_flat h.1, oneLine_flatItems h.2⟩

theorem oneLine_flatMembers :
    ∀ {members : List (String × Expression)}, PlainMembers members →
      ∀ text ∈ flatMembers members, OneLine text
  | [], _ => by simp [flatMembers]
  | (key, value) :: rest, h => by
      rw [flatMembers]
      refine List.forall_mem_cons.mpr ⟨?_, oneLine_flatMembers h.2.2⟩
      split
      · exact h.1
      · exact (h.1.append (by decide)).append (oneLine_flat h.2.1)

end

/-! ## Lines -/

end Expression

/-- A line that begins with a blank. -/
def Indented (line : String) : Prop := OneLine line ∧ Opens " " line

theorem indented_margin (hlevel : 0 < level) (h : OneLine line) :
    Indented (margin level ++ line) := by
  constructor
  · refine OneLine.append ?_ h
    rw [margin, oneLine_ofList]
    exact fun hfeed => absurd (List.eq_of_mem_replicate hfeed) (by decide)
  · obtain ⟨n, rfl⟩ := Nat.exists_eq_add_one.mpr hlevel
    simp [Opens, margin, Nat.mul_add, List.replicate_succ]

namespace Expression

theorem oneLine_memberLead {key : String} (value : Expression) (h : OneLine key) :
    OneLine (memberLead key value) := by
  unfold memberLead
  split
  · decide
  · exact h.append (by decide)

theorem indented_flat {value : Expression} (hlevel : 0 < level) (hlead : OneLine lead)
    (htail : OneLine tail) (hplain : value.Plain) :
    Indented (margin level ++ lead ++ value.flat ++ tail) := by
  rw [String.append_assoc, String.append_assoc]
  exact indented_margin hlevel (hlead.append ((oneLine_flat hplain).append htail))

/-- A broken expression is indented if what stands between its brackets is. -/
theorem indented_broken {opening closing : String} {inner : List String} (hlevel : 0 < level)
    (hopening : OneLine opening) (hclosing : OneLine closing) (hlead : OneLine lead)
    (htail : OneLine tail) (hinner : ∀ line ∈ inner, Indented line) :
    ∀ line ∈ [margin level ++ lead ++ opening] ++ inner ++ [margin level ++ closing ++ tail],
      Indented line := by
  simp only [List.forall_mem_append, List.forall_mem_singleton, String.append_assoc]
  exact ⟨⟨indented_margin hlevel (hlead.append hopening), hinner⟩,
    indented_margin hlevel (hclosing.append htail)⟩

mutual

theorem indented_laidOut : ∀ {value : Expression} {level : Nat} {lead tail : String}, 0 < level →
    OneLine lead → OneLine tail → value.Plain → ∀ line ∈ laidOut level lead value tail,
      Indented line
  | .record members, level, lead, tail, hlevel, hlead, htail, h => by
      have hwhole : Indented (margin level ++ lead ++ flat (.record members) ++ tail) :=
        indented_flat hlevel hlead htail h
      have hinner := indented_laidOutMembers (Nat.succ_pos level) h
      simp only [laidOut]
      split
      · exact List.forall_mem_singleton.mpr hwhole
      · exact indented_broken hlevel (by decide) (by decide) hlead htail hinner
  | .list items, level, lead, tail, hlevel, hlead, htail, h => by
      have hwhole : Indented (margin level ++ lead ++ flat (.list items) ++ tail) :=
        indented_flat hlevel hlead htail h
      have hinner := indented_laidOutItems (Nat.succ_pos level) h
      simp only [laidOut]
      split
      · exact List.forall_mem_singleton.mpr hwhole
      · exact indented_broken hlevel (by decide) (by decide) hlead htail hinner
  | .name _, _, _, _, hlevel, hlead, htail, h
  | .text _, _, _, _, hlevel, hlead, htail, h
  | .number _, _, _, _, hlevel, hlead, htail, h
  | .member _ _, _, _, _, hlevel, hlead, htail, h
  | .binary _ _ _, _, _, _, hlevel, hlead, htail, h
  | .call _ _, _, _, _, hlevel, hlead, htail, h => by
      -- Nothing else is ever broken.
      simpa only [laidOut, ite_self, List.forall_mem_singleton]
        using indented_flat hlevel hlead htail h

theorem indented_laidOutMembers : ∀ {members : List (String × Expression)} {level : Nat},
    0 < level → PlainMembers members → ∀ line ∈ laidOutMembers level members, Indented line
  | [], _, _, _ => by simp [laidOutMembers]
  | (key, value) :: rest, _, hlevel, h => by
      rw [laidOutMembers]
      exact List.forall_mem_append.mpr
        ⟨indented_laidOut hlevel (oneLine_memberLead value h.1) (by decide) h.2.1,
          indented_laidOutMembers hlevel h.2.2⟩

theorem indented_laidOutItems : ∀ {items : List Expression} {level : Nat},
    0 < level → PlainItems items → ∀ line ∈ laidOutItems level items, Indented line
  | [], _, _, _ => by simp [laidOutItems]
  | item :: rest, _, hlevel, h => by
      rw [laidOutItems]
      exact List.forall_mem_append.mpr
        ⟨indented_laidOut hlevel (by decide) (by decide) h.1, indented_laidOutItems hlevel h.2⟩

end

end Expression

mutual

theorem Statement.indented_lines : ∀ {statement : Statement} {level : Nat}, 0 < level →
    statement.Plain → ∀ line ∈ statement.lines level, Indented line
  | .note text, _, hlevel, h => by
      rw [lines, List.forall_mem_singleton, String.append_assoc]
      exact indented_margin hlevel (OneLine.append (by decide) h)
  | .returns value, _, hlevel, h => by
      rw [lines]
      exact Expression.indented_laidOut hlevel (by decide) (by decide) h
  | .when condition body, level, hlevel, h => by
      have hbody := Statement.indented_blockLines (Nat.succ_pos level) h.2
      rw [lines]
      simp only [List.forall_mem_append, List.forall_mem_singleton, String.append_assoc]
      refine ⟨⟨?_, hbody⟩, indented_margin hlevel (by decide)⟩
      exact indented_margin hlevel (OneLine.append (by decide)
        ((Expression.oneLine_flat h.1).append (by decide)))

theorem Statement.indented_blockLines : ∀ {body : List Statement} {level : Nat}, 0 < level →
    Statement.PlainBlock body → ∀ line ∈ Statement.blockLines level body, Indented line
  | [], _, _, _ => by simp [Statement.blockLines]
  | statement :: rest, _, hlevel, h => by
      rw [blockLines]
      exact List.forall_mem_append.mpr
        ⟨Statement.indented_lines hlevel h.1, Statement.indented_blockLines hlevel h.2⟩

end

/-! ## Constants and functions -/

/-- A line that declares no interface. -/
def OpensNoInterface (line : String) : Prop :=
  OneLine line ∧ ¬ Opens "export interface " line

instance : DecidablePred OpensNoInterface := fun line =>
  inferInstanceAs (Decidable (OneLine line ∧ ¬ Opens "export interface " line))

theorem Indented.opensNoInterface (h : Indented line) : OpensNoInterface line :=
  ⟨h.1, fun hopens => (hopens.or h.2).elim (by decide) (by decide)⟩

theorem Constant.Plain.opensNoInterface {constant : Constant} (h : constant.Plain) :
    OpensNoInterface constant.line := by
  constructor
  · exact ((((OneLine.between (by decide) h.name (by decide)).append h.type).append
      (by decide)).append (Expression.oneLine_flat h.value)).append (by decide)
  · simp [Constant.line, Opens]

namespace Function.Plain

variable {function : Function}

theorem oneLine_of_mem_declarations (h : function.Plain) :
    ∀ text ∈ function.declarations, OneLine text := by
  intro text htext
  obtain ⟨parameter, hparameter, rfl⟩ := List.mem_map.mp htext
  obtain ⟨hname, htype⟩ := h.parameters parameter hparameter
  exact (hname.append (by decide)).append htype

theorem opening (h : function.Plain) : ∀ line ∈ function.opening, OpensNoInterface line := by
  -- Exported or not, it is a function that comes next and no interface.
  obtain ⟨keyword, hkeyword, honeLine, hopens⟩ :
      ∃ keyword, (if function.exported then "export " else "") = keyword ∧ OneLine keyword ∧
        ∀ rest, ¬ Opens "export interface " (keyword ++ ("function " ++ rest)) := by
    refine ⟨_, rfl, ?_⟩
    split
    · exact ⟨by decide, fun rest => by simp [Opens]⟩
    · exact ⟨by decide, fun rest => by simp [Opens]⟩
  have hlead : OneLine (keyword ++ "function " ++ function.name ++ "(") :=
    ((honeLine.append (by decide)).append h.name).append (by decide)
  have htail : OneLine ("): " ++ function.result ++ " \x7b") :=
    OneLine.between (by decide) h.result (by decide)
  have hdeclarations := h.oneLine_of_mem_declarations
  simp only [Function.opening, hkeyword]
  split
  · rw [List.forall_mem_singleton]
    refine ⟨(hlead.append (.joined (by decide) hdeclarations)).append htail, ?_⟩
    simpa only [String.append_assoc] using hopens _
  · simp only [List.forall_mem_append, List.forall_mem_singleton]
    refine ⟨⟨⟨hlead, by simpa only [String.append_assoc] using hopens _⟩, ?_⟩, htail,
      by simp [Opens]⟩
    intro line hline
    obtain ⟨text, htext, rfl⟩ := List.mem_map.mp hline
    rw [String.append_assoc]
    exact (indented_margin Nat.one_pos
      ((hdeclarations text htext).append (by decide))).opensNoInterface

theorem lines (h : function.Plain) : ∀ line ∈ function.lines, OpensNoInterface line := by
  simp only [Function.lines, List.forall_mem_append]
  refine ⟨⟨⟨?_, h.opening⟩, ?_⟩, by decide⟩
  · split
    next => simp
    next text hdoc =>
      have htext : OneLine text := h.doc text hdoc
      rw [List.forall_mem_singleton]
      exact ⟨OneLine.between (by decide) htext (by decide), by simp [Opens]⟩
  · intro line hline
    exact (Statement.indented_blockLines Nat.one_pos h.body line hline).opensNoInterface

end Function.Plain

theorem Script.Plain.lines {script : Script} (h : script.Plain) :
    ∀ line ∈ script.lines, OpensNoInterface line := by
  simp only [Script.lines, List.forall_mem_append, List.forall_mem_map, List.forall_mem_flatMap]
  exact ⟨⟨fun constant hconstant => (h.constants constant hconstant).opensNoInterface, by decide⟩,
    fun function hfunction => (h.functions function hfunction).lines⟩

/-! ## The connection logic -/

@[simp] theorem plain_kindOnly (kind : String) : (kindOnly kind).Plain :=
  ⟨by decide, trivial, trivial⟩

@[simp] theorem plain_stateIs (kind : String) : (stateIs kind).Plain :=
  ⟨⟨(by decide : OneLine "state"), by decide⟩, trivial⟩

@[simp] theorem plain_signalIs (signal : String) : (signalIs signal).Plain :=
  ⟨(by decide : OneLine "signal"), trivial⟩

@[simp] theorem plain_outcome {state : Expression} {effects : List Expression} :
    (outcome state effects).Plain ↔ state.Plain ∧ Expression.PlainItems effects := by
  have hstate : OneLine "state" := by decide
  have heffects : OneLine "effects" := by decide
  simp [outcome, Statement.Plain, Expression.Plain, Expression.PlainMembers, hstate, heffects]

theorem plain_restingStates : ∀ constant ∈ restingStates, constant.Plain := by
  simp only [restingStates, List.forall_mem_cons]
  exact ⟨⟨by decide, by decide, plain_kindOnly _⟩, ⟨by decide, by decide, plain_kindOnly _⟩,
    ⟨by decide, by decide, plain_kindOnly _⟩, List.forall_mem_nil _⟩

theorem plain_retryDelayFunction : retryDelayFunction.Plain where
  doc := by simp [retryDelayFunction, OneLine]
  name := by decide
  parameters := by simp [retryDelayFunction, OneLine]
  result := by decide
  body := by
    simp [retryDelayFunction, Statement.PlainBlock, Statement.Plain, Expression.Plain, OneLine]

theorem plain_retryFunction : retryFunction.Plain where
  doc := by simp [retryFunction]
  name := by decide
  parameters := by simp [retryFunction, OneLine]
  result := by decide
  body := by
    simp [retryFunction, Statement.PlainBlock, Statement.Plain, Expression.Plain,
      Expression.PlainItems, Expression.PlainMembers, OneLine]

theorem plain_transitionFunction : transitionFunction.Plain where
  doc := by simp [transitionFunction, OneLine]
  name := by decide
  parameters := by simp [transitionFunction, OneLine]
  result := by decide
  body := by
    simp [transitionFunction, Statement.PlainBlock, Statement.Plain, Expression.Plain,
      Expression.PlainItems, OneLine]

theorem plain_connectionScript : connectionScript.Plain where
  constants := plain_restingStates
  functions := by
    simp only [connectionScript, List.forall_mem_cons]
    exact ⟨plain_retryDelayFunction, plain_retryFunction, plain_transitionFunction,
      List.forall_mem_nil _⟩

end EventContract.Consumption
