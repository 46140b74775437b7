import EventContract.Proofs.ChainFlattening
import EventContract.Proofs.FirstFault

/-! # What is left to check of a folded chain

The documents of a chain have passed their own checks when the chain is folded. Folding them then
cannot fail, and of the checks on the schema only those can which compare names with reserved ones
or with each other's payload types: events stay complete when they take each other's places, and no
name is there twice.
-/

namespace EventContract

namespace Schema

variable {schema : Schema} {chain : List Document} {problem : Problem}

/-- Documents, from one to its last ancestor, that have passed their checks. -/
structure CheckedChain (chain : List Document) : Prop where
  checked : ∀ document ∈ chain, document.check = .ok ()
  root : ∃ root, chain.getLast? = some root ∧ root.parent = none

/-- A problem of a name that is reserved or of two names that give one identifier. -/
def IsNameProblem (problem : Problem) : Prop :=
  (∃ event, problem = .reservedEvent event) ∨
    ∃ first second identifier, problem = .sameIdentifier first second identifier

/-! ## Faults of a schema of distinct names -/

theorem exists_incomplete {origin : String} {events : List Event}
    (h : IncompleteEvent origin events problem) : ∃ event ∈ events, ¬ event.IsComplete := by
  cases h with
  | @name before after event hsplit _ hname =>
      exact ⟨event, by simp [hsplit], fun hcomplete => hcomplete.1 hname⟩
  | @payload before after event hsplit _ _ hpayload =>
      exact ⟨event, by simp [hsplit], fun hcomplete => hcomplete.2 hpayload⟩

theorem FirstFault.isNameProblem (h : schema.FirstFault problem) (hendpoint : schema.endpoint ≠ "")
    (hcomplete : ∀ event ∈ schema.events, event.IsComplete) (hdistinct : schema.eventNames.Nodup) :
    IsNameProblem problem := by
  cases h with
  | endpoint hnone => exact absurd hnone hendpoint
  | event _ hevent =>
      obtain ⟨event, hmem, hincomplete⟩ := exists_incomplete hevent
      exact absurd (hcomplete event hmem) hincomplete
  | name _ _ hname =>
      cases hname with
      | reserved => exact .inl ⟨_, rfl⟩
      | @repeated before after event hsplit _ _ _ hrepeated =>
          rw [eventNames, hsplit, List.map_append, List.map_cons] at hdistinct
          exact absurd rfl ((List.nodup_append.mp hdistinct).2.2 _ hrepeated _ List.mem_cons_self)
  | type _ _ _ _ htype =>
      cases htype
      exact .inr ⟨_, _, _, rfl⟩

/-! ## Folding checked documents -/

/-- What checked documents come to: only names may be wrong with it. -/
theorem CheckedChain.exists_fold (h : CheckedChain chain) : ∃ schema, fold chain = .ok schema ∧
    ∀ problem, schema.check = .error problem → IsNameProblem problem := by
  obtain ⟨root, hlast, hparent⟩ := h.root
  have hroot : root ∈ chain := List.mem_of_getLast? hlast
  obtain ⟨endpoint, hendpoint⟩ := exists_nearestEndpoint hroot (h.checked root hroot) hparent
  obtain ⟨-, -, -, -, ⟨-, hnonempty⟩, -⟩ := nearestEndpoint_eq_some_iff.mp hendpoint
  refine ⟨⟨endpoint, merged (declaredEvents chain)⟩, by rw [fold, hendpoint], ?_⟩
  intro problem hproblem
  refine (check_eq_error_iff.mp hproblem).isNameProblem hnonempty ?_ ?_
  · intro event hevent
    exact complete_of_mem_declaredEvents h.checked (mem_of_mem_merged hevent)
  · exact nodup_names_merged _

theorem CheckedChain.isNameProblem (h : CheckedChain chain)
    (herror : ofChain chain = .error problem) : IsNameProblem problem := by
  obtain ⟨schema, hfold, hnames⟩ := h.exists_fold
  rw [ofChain, hfold] at herror
  rcases bind_unit_eq_error_iff.mp herror with hcheck | ⟨-, hdone⟩
  · exact hnames problem hcheck
  · cases hdone

end Schema

theorem Document.check_ne_duplicateEvent (document : Document) (name : String) :
    document.check ≠ .error (.duplicateEvent name) := by
  intro h
  cases check_eq_error_iff.mp h with
  | event _ _ hevent => cases hevent

theorem Shelf.ofDocument_ne_duplicateEvent (shelf : Shelf) (leaf : Document) (name : String) :
    Schema.ofDocument shelf.catalog leaf ≠ .error (.duplicateEvent name) := by
  intro h
  obtain ⟨visited, outcome⟩ :
      ∃ visited, shelf.Outcome leaf visited (.error (.duplicateEvent name)) :=
    ⟨_, outcome_iff.mpr ⟨rfl, h⟩⟩
  generalize hresult : Except.error (Problem.duplicateEvent name) = result at outcome
  cases outcome with
  | refused _ hcheck =>
      cases hresult
      exact Document.check_ne_duplicateEvent _ name hcheck
  | missing => cases hresult
  | revisited => cases hresult
  | @rooted below last trail hcheck hroot =>
      have hchain : Schema.CheckedChain (last :: below).reverse := by
        refine ⟨fun document hmem => ?_, last, by simp, hroot⟩
        rcases List.mem_cons.mp (List.mem_reverse.mp hmem) with rfl | hmem
        · exact hcheck
        · exact trail.checked document hmem
      rcases hchain.isNameProblem hresult.symm with ⟨_, heq⟩ | ⟨_, _, _, heq⟩
      · cases heq
      · cases heq

/-- Documents that have passed their checks, the last of which extends none, always fold, and their
schema is accepted or has a name that is reserved or two names of one identifier. So no document of
a shelf ever resolves to a repeated event. -/
theorem only_names_left_to_check :
    (∀ chain, Schema.CheckedChain chain → ∃ schema, Schema.fold chain = .ok schema ∧
      (schema.check = .ok () ∨ (∃ event, schema.check = .error (.reservedEvent event)) ∨
        ∃ first second identifier,
          schema.check = .error (.sameIdentifier first second identifier))) ∧
    ∀ (shelf : Shelf) (leaf : Document) (name : String),
      Schema.ofDocument shelf.catalog leaf ≠ .error (.duplicateEvent name) := by
  refine ⟨fun chain hchain => ?_, Shelf.ofDocument_ne_duplicateEvent⟩
  obtain ⟨schema, hfold, hnames⟩ := hchain.exists_fold
  refine ⟨schema, hfold, ?_⟩
  cases hcheck : schema.check with
  | ok => exact .inl rfl
  | error problem =>
      rcases hnames problem hcheck with ⟨event, rfl⟩ | ⟨first, second, identifier, rfl⟩
      · exact .inr (.inl ⟨event, rfl⟩)
      · exact .inr (.inr ⟨first, second, identifier, rfl⟩)

/-- Two documents that are fine one by one. The names of their events differ only in a hyphen. -/
def Sample.clash : List Document :=
  [⟨.inline, none, some [Sample.event "doc-opened" "a"], some "base"⟩,
    ⟨.named "base", some "/events", some [Sample.event "docOpened" "b"], none⟩]

theorem only_names_left_to_check_clash : Schema.CheckedChain Sample.clash ∧
    Schema.ofChain Sample.clash =
      .error (.sameIdentifier "docOpened" "doc-opened" "DocOpenedEvent") ∧
    ∃ schema, Schema.fold Sample.clash = .ok schema ∧
      (schema.check = .ok () ∨ (∃ event, schema.check = .error (.reservedEvent event)) ∨
        ∃ first second identifier,
          schema.check = .error (.sameIdentifier first second identifier)) := by
  have h : Schema.CheckedChain Sample.clash := ⟨by decide, _, rfl, rfl⟩
  exact ⟨h, by decide +kernel, only_names_left_to_check.1 Sample.clash h⟩

end EventContract
