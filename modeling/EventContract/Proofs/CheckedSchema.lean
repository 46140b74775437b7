import EventContract.Proofs.ExceptLaws
import EventContract.Schema.WellFormed
import Mathlib.Data.List.Nodup

/-! # What the checks accept

The checks stop at the first fault they meet. Here is what holds when they meet none, stated on the
document or schema as a whole.
-/

namespace EventContract

/-- An event has a name and at least one field. -/
def Event.IsComplete (event : Event) : Prop :=
  event.name ≠ "" ∧ event.payload ≠ []

/-- A schema that both artifacts can be written from. -/
structure Schema.WellFormed (schema : Schema) : Prop where
  endpoint : schema.endpoint ≠ ""
  complete : ∀ event ∈ schema.events, event.IsComplete
  unreserved : ∀ name ∈ schema.eventNames, name ∉ reservedNames
  types : (schema.eventNames.map Name.payloadType).Nodup

/-- A document that may stand in a chain. -/
structure Document.WellFormed (document : Document) : Prop where
  endpoint : isPresent document.endpoint ∨ document.parent.isSome
  events : ∃ events, document.events = some events ∧ ∀ event ∈ events, event.IsComplete

theorem firstIncomplete_eq_ok_iff (origin : String) (index : Nat) (events : List Event) :
    firstIncomplete origin index events = .ok () ↔ ∀ event ∈ events, event.IsComplete := by
  induction events generalizing index with
  | nil => simp [firstIncomplete]
  | cons event rest ih =>
      rw [firstIncomplete, List.forall_mem_cons, Event.IsComplete]
      split
      next hname => simp [String.isEmpty_iff.mp hname]
      next hname =>
        split
        next hpayload => simp [List.isEmpty_iff.mp hpayload]
        next hpayload =>
          rw [String.isEmpty_iff] at hname
          rw [List.isEmpty_iff] at hpayload
          simp [hname, hpayload, ih]

theorem firstRefusedName_eq_ok_iff (seen : List String) (events : List Event) :
    firstRefusedName seen events = .ok () ↔
      (∀ name ∈ events.map Event.name, name ∉ reservedNames) ∧ (events.map Event.name).Nodup ∧
        ∀ event ∈ events, event.name ∉ seen := by
  induction events generalizing seen with
  | nil => simp [firstRefusedName]
  | cons event rest ih =>
      rw [firstRefusedName]
      split
      next hreserved => simp [hreserved]
      next hreserved =>
        split
        next hseen => simp [hseen]
        next hseen =>
          -- The name becomes one of those seen, so that it is new to the rest of the events.
          rw [ih]
          simp only [List.map_cons, List.mem_cons, forall_eq_or_imp, hreserved, hseen,
            not_false_eq_true, true_and, List.nodup_cons, List.mem_map, not_or]
          constructor
          · rintro ⟨hfree, hdistinct, hnew⟩
            refine ⟨hfree, ⟨?_, hdistinct⟩, fun other hother => (hnew other hother).2⟩
            rintro ⟨other, hother, heq⟩
            exact (hnew other hother).1 heq
          · rintro ⟨hfree, ⟨hnew, hdistinct⟩, hrest⟩
            exact ⟨hfree, hdistinct, fun other hother =>
              ⟨fun heq => hnew ⟨other, hother, heq⟩, hrest other hother⟩⟩

theorem firstCollision_eq_ok_iff (seen : List String) (events : List Event) :
    firstCollision seen events = .ok () ↔
      ((events.map Event.name).map Name.payloadType).Nodup ∧
        ∀ event ∈ events, ∀ name ∈ seen, Name.payloadType name ≠ Name.payloadType event.name := by
  induction events generalizing seen with
  | nil => simp [firstCollision]
  | cons event rest ih =>
      rw [firstCollision]
      cases hfind : seen.find? fun name => Name.payloadType name = Name.payloadType event.name with
      | some first =>
          have hsame : Name.payloadType first = Name.payloadType event.name := by
            simpa using List.find?_some hfind
          have hfirst : first ∈ seen := List.mem_of_find?_eq_some hfind
          simp only [reduceCtorEq, false_iff, not_and, List.forall_mem_cons]
          exact fun _ hnew => absurd hsame (hnew first hfirst)
      | none =>
          have hnone : ∀ name ∈ seen, Name.payloadType name ≠ Name.payloadType event.name := by
            simpa using hfind
          simp only [ih, List.map_cons, List.nodup_cons, List.map_map, List.mem_map, List.mem_cons,
            forall_eq_or_imp, Function.comp_apply]
          constructor
          · rintro ⟨hdistinct, hnew⟩
            refine ⟨⟨?_, hdistinct⟩, hnone, fun other hother => (hnew other hother).2⟩
            rintro ⟨other, hother, heq⟩
            exact (hnew other hother).1 heq.symm
          · rintro ⟨⟨hnew, hdistinct⟩, -, hrest⟩
            exact ⟨hdistinct, fun other hother =>
              ⟨fun heq => hnew ⟨other, hother, heq.symm⟩, hrest other hother⟩⟩

namespace Schema

/-- Different payload types belong to different names. -/
theorem WellFormed.names {schema : Schema} (h : schema.WellFormed) :
    schema.eventNames.Nodup :=
  List.Nodup.of_map _ h.types

/-- A schema passes its check exactly when it is well-formed. -/
theorem check_eq_ok_iff (schema : Schema) : schema.check = .ok () ↔ schema.WellFormed := by
  unfold check
  split
  next hempty =>
    simp only [reduceCtorEq, false_iff]
    exact fun h => h.endpoint (String.isEmpty_iff.mp hempty)
  next hempty =>
    rw [String.isEmpty_iff] at hempty
    simp only [bind_unit_eq_ok_iff, firstIncomplete_eq_ok_iff, firstRefusedName_eq_ok_iff,
      firstCollision_eq_ok_iff]
    constructor
    · rintro ⟨hcomplete, ⟨hfree, -, -⟩, htypes, -⟩
      exact ⟨hempty, hcomplete, hfree, htypes⟩
    · intro h
      exact ⟨h.complete, ⟨h.unreserved, h.names, by simp⟩, h.types, by simp⟩

/-- The names that events of accepted schemas have. -/
theorem exists_accepted_iff (name : String) :
    (∃ schema : Schema, schema.check = .ok () ∧ name ∈ schema.eventNames) ↔
      name ≠ "" ∧ name ∉ reservedNames := by
  simp only [check_eq_ok_iff]
  constructor
  · rintro ⟨schema, hwell, hname⟩
    refine ⟨?_, hwell.unreserved name hname⟩
    obtain ⟨event, hevent, rfl⟩ := List.mem_map.mp hname
    exact (hwell.complete event hevent).1
  · rintro ⟨hname, hfree⟩
    refine ⟨⟨"/events", [⟨name, "", [⟨"text", .string, "", none⟩]⟩]⟩, ?_,
      List.mem_singleton.mpr rfl⟩
    exact {
      endpoint := show "/events" ≠ "" by decide
      complete := by simp [Event.IsComplete, hname]
      unreserved := by simpa [Schema.eventNames] using hfree
      types := List.nodup_singleton _ }

end Schema

/-- A document passes its check exactly when it may stand in a chain. -/
theorem Document.check_eq_ok_iff (document : Document) :
    document.check = .ok () ↔ document.WellFormed := by
  unfold check
  split
  next hopen =>
    simp only [reduceCtorEq, false_iff]
    intro h
    rcases h.endpoint with hendpoint | hparent
    · simp [hendpoint] at hopen
    · simp [Option.isNone_iff_eq_none, Option.isSome_iff_ne_none.mp hparent] at hopen
  next hopen =>
    have hendpoint : isPresent document.endpoint ∨ document.parent.isSome := by
      cases hpresent : isPresent document.endpoint with
      | true => exact .inl rfl
      | false =>
          refine .inr ?_
          simpa [hpresent, Option.isSome_iff_ne_none] using hopen
    cases hevents : document.events with
    | none =>
        simp only [reduceCtorEq, false_iff]
        intro h
        obtain ⟨events, hsome, -⟩ := h.events
        rw [hevents] at hsome
        cases hsome
    | some events =>
        simp only [firstIncomplete_eq_ok_iff]
        constructor
        · exact fun hcomplete => ⟨hendpoint, events, hevents, hcomplete⟩
        · intro h
          obtain ⟨_, hsome, hcomplete⟩ := h.events
          cases hevents.symm.trans hsome
          exact hcomplete

/-! ## What the checks never report -/

theorem firstIncomplete_ne_cycle (origin : String) (index : Nat) (events : List Event)
    (chain : List String) : firstIncomplete origin index events ≠ .error (.cycle chain) := by
  induction events generalizing index with
  | nil => simp [firstIncomplete]
  | cons event rest ih =>
      rw [firstIncomplete]
      split
      · simp
      · split
        · simp
        · exact ih (index + 1)

theorem firstRefusedName_ne_cycle (seen : List String) (events : List Event)
    (chain : List String) : firstRefusedName seen events ≠ .error (.cycle chain) := by
  induction events generalizing seen with
  | nil => simp [firstRefusedName]
  | cons event rest ih =>
      rw [firstRefusedName]
      split
      · simp
      · split
        · simp
        · exact ih (event.name :: seen)

theorem firstCollision_ne_cycle (seen : List String) (events : List Event)
    (chain : List String) : firstCollision seen events ≠ .error (.cycle chain) := by
  induction events generalizing seen with
  | nil => simp [firstCollision]
  | cons event rest ih =>
      simp only [firstCollision]
      split
      · simp
      · exact ih (event.name :: seen)

theorem Document.check_ne_cycle (document : Document) (chain : List String) :
    document.check ≠ .error (.cycle chain) := by
  unfold check
  split
  · simp
  · split
    · simp
    · exact firstIncomplete_ne_cycle _ _ _ chain

theorem Schema.check_ne_cycle (schema : Schema) (chain : List String) :
    schema.check ≠ .error (.cycle chain) := by
  unfold check
  split
  · simp
  · simp only [ne_eq, bind_eq_error_iff, firstIncomplete_ne_cycle, firstRefusedName_ne_cycle,
      firstCollision_ne_cycle, and_false, exists_false, or_self, not_false_eq_true]

end EventContract
