import EventContract.Client.Dispatch
import EventContract.Proofs.TableLaws
import Mathlib.Data.List.Dedup

/-! # The log of registrations

A caller of a registry may keep a log: each registration goes to the end with the number it was
given, and one that is taken back is struck out. The registry keeps its callbacks apart, event by
event and those for every event, but it answers as the log says: by the log it finds what is taken
back, counts callbacks and events and calls callbacks in order.
-/

namespace EventContract.Client

variable {κ π σ : Type}

/-! ## Changes and their log -/

/-- What a caller changes, for one event or, with no event, for every event. -/
inductive Change (κ : Type) where
  | register (event : Option String) (callback : κ)
  | takeBack (event : Option String) (id : Nat)

/-- The registration that an answer is about. -/
def Answer.given? : Answer → Option Nat
  | .registered id => some id
  | _ => none

/-- A registration in a log: its number, the event it is for, if it is for one, and the callback. -/
structure Entry (κ : Type) where
  id : Nat
  event : Option String
  callback : κ

namespace Registry

/-- The answer to a change, and the registry after it. -/
def change (registry : Registry κ) : Change κ → Answer × Registry κ
  | .register (some event) callback =>
    let (id, after) := registry.on event callback
    (.registered id, after)
  | .register none callback =>
    let (id, after) := registry.onAll callback
    (.registered id, after)
  | .takeBack (some event) id =>
    let (found, after) := registry.off event id
    (.removed found, after)
  | .takeBack none id =>
    let (found, after) := registry.offAll id
    (.removed found, after)

/-- The registrations for one event or, with no event, those for every event. -/
def under (registry : Registry κ) : Option String → List (Registration κ)
  | some event => registry.specific event
  | none => registry.wildcard

end Registry

namespace Entry

/-- The registration as the registry holds it. -/
def registration (entry : Entry κ) : Registration κ := (entry.id, entry.callback)

/-- The entry of the given number and event. -/
def has (id : Nat) (event : Option String) (entry : Entry κ) : Bool :=
  entry.id = id ∧ entry.event = event

@[simp]
theorem has_iff {id : Nat} {event : Option String} {entry : Entry κ} :
    entry.has id event = true ↔ entry.id = id ∧ entry.event = event :=
  decide_eq_true_iff

/-- The call of the callback for an event. -/
def call (event : String) (payload : π) (entry : Entry κ) : Call κ π :=
  ⟨entry.id, entry.callback, entry.event.isNone, event, payload⟩

end Entry

/-- A registry in use, with the answers it gave and the log that its caller keeps. -/
structure Usage (κ : Type) where
  registry : Registry κ
  answers : List Answer
  log : List (Entry κ)

/-- A log after a change and its answer. -/
def entered (log : List (Entry κ)) : Change κ → Answer → List (Entry κ)
  | .register event callback, .registered id => log ++ [⟨id, event, callback⟩]
  | .takeBack event id, .removed true => log.filter fun entry => ¬ entry.has id event
  | _, _ => log

namespace Usage

/-- Makes a change. -/
def make (usage : Usage κ) (change : Change κ) : Usage κ :=
  let (answer, registry) := usage.registry.change change
  ⟨registry, usage.answers ++ [answer], entered usage.log change answer⟩

/-- A new registry after changes. -/
def ofChanges (changes : List (Change κ)) : Usage κ :=
  changes.foldl make ⟨.empty, [], []⟩

end Usage

/-! ## One change of a registry -/

namespace Registry

variable (registry : Registry κ)

theorem mem_without {id : Nat} {registrations : List (Registration κ)} :
    (without id registrations).length ≠ registrations.length ↔
      ∃ registration ∈ registrations, registration.1 = id := by
  rw [without, Ne, List.length_filter_eq_length_iff]
  simp

theorem without_eq_self {id : Nat} {registrations : List (Registration κ)}
    (h : ∀ registration ∈ registrations, registration.1 ≠ id) :
    without id registrations = registrations :=
  List.filter_eq_self.mpr fun registration hmem => decide_eq_true (h registration hmem)

theorem off_of_none {event : String} (hget : registry.byEvent.get? event = none) (id : Nat) :
    registry.off event id = (false, registry) := by
  simp only [off, hget]

theorem off_of_some {event : String} {registrations : List (Registration κ)}
    (hget : registry.byEvent.get? event = some registrations) (id : Nat) :
    registry.off event id =
      (decide ((without id registrations).length ≠ registrations.length), { registry with
        byEvent := if (without id registrations).isEmpty then registry.byEvent.remove event
          else registry.byEvent.put event (without id registrations) }) := by
  simp only [off, hget]

theorem specific_off (event event' : String) (id : Nat) :
    (registry.off event id).2.specific event' =
      if event = event' then without id (registry.specific event)
      else registry.specific event' := by
  cases hget : registry.byEvent.get? event with
  | none =>
      rw [off_of_none registry hget]
      split
      next heq => rw [← heq, specific, hget]; rfl
      next => rfl
  | some registrations =>
      rw [off_of_some registry hget, specific, specific, specific, hget]
      by_cases hempty : (without id registrations).isEmpty
      · rw [if_pos hempty, Table.get?_remove]
        split
        · exact (List.isEmpty_iff.mp hempty).symm
        · rfl
      · rw [if_neg hempty, Table.get?_put]
        split <;> rfl

theorem wildcard_off (event : String) (id : Nat) :
    (registry.off event id).2.wildcard = registry.wildcard := by
  unfold off
  split <;> rfl

theorem issued_off (event : String) (id : Nat) :
    (registry.off event id).2.issued = registry.issued := by
  unfold off
  split <;> rfl

theorem found_off (event : String) (id : Nat) : (registry.off event id).1 =
    decide (∃ registration ∈ registry.specific event, registration.1 = id) := by
  cases hget : registry.byEvent.get? event with
  | none => simp [off_of_none registry hget, specific, hget]
  | some registrations =>
      rw [off_of_some registry hget, specific, hget, Option.getD_some, decide_eq_decide]
      exact mem_without

theorem under_register (event event' : Option String) (callback : κ) :
    (registry.change (.register event callback)).2.under event' =
      if event = event' then registry.under event ++ [(registry.issued + 1, callback)]
      else registry.under event' := by
  cases event with
  | some event =>
      cases event' with
      | some event' =>
          simp only [change, on, under, specific, Table.get?_put, Option.some.injEq]
          split <;> rfl
      | none => rfl
  | none =>
      cases event' with
      | some event' => rfl
      | none => rfl

theorem under_takeBack (event event' : Option String) (id : Nat) :
    (registry.change (.takeBack event id)).2.under event' =
      if event = event' then without id (registry.under event) else registry.under event' := by
  cases event with
  | some event =>
      cases event' with
      | some event' =>
          simp only [change, under, specific_off, Option.some.injEq]
      | none => exact wildcard_off registry event id
  | none =>
      cases event' with
      | some event' => rfl
      | none => rfl

theorem answer_takeBack (event : Option String) (id : Nat) :
    (registry.change (.takeBack event id)).1 =
      .removed (decide (∃ registration ∈ registry.under event, registration.1 = id)) := by
  cases event with
  | some event => exact congrArg Answer.removed (registry.found_off event id)
  | none => exact congrArg Answer.removed (decide_eq_decide.mpr mem_without)

theorem issued_takeBack (event : Option String) (id : Nat) :
    (registry.change (.takeBack event id)).2.issued = registry.issued := by
  cases event with
  | some event => exact registry.issued_off event id
  | none => rfl

theorem answer_register (event : Option String) (callback : κ) :
    (registry.change (.register event callback)).1 = .registered (registry.issued + 1) := by
  cases event <;> rfl

theorem issued_register (event : Option String) (callback : κ) :
    (registry.change (.register event callback)).2.issued = registry.issued + 1 := by
  cases event <;> rfl

/-! ## What a registry keeps in order -/

/-- Each event has one entry in the table, and no entry is empty. -/
structure Tidy (registry : Registry κ) : Prop where
  keys : registry.byEvent.keys.Nodup
  filled : ∀ event registrations,
    registry.byEvent.get? event = some registrations → registrations ≠ []

variable {registry : Registry κ}

theorem tidy_on (h : registry.Tidy) (event : String) (callback : κ) :
    (registry.on event callback).2.Tidy where
  keys := Table.nodup_keys_put h.keys _ _
  filled event' registrations hget := by
    simp only [on, Table.get?_put] at hget
    split at hget
    next =>
      cases hget
      exact List.append_ne_nil_of_right_ne_nil _ (List.cons_ne_nil _ _)
    next => exact h.filled event' registrations hget

theorem tidy_off (h : registry.Tidy) (event : String) (id : Nat) :
    (registry.off event id).2.Tidy := by
  cases hget : registry.byEvent.get? event with
  | none =>
      rw [off_of_none registry hget]
      exact h
  | some registrations =>
      rw [off_of_some registry hget]
      by_cases hempty : (without id registrations).isEmpty
      · rw [if_pos hempty]
        refine ⟨Table.nodup_keys_remove h.keys event, fun event' registrations' hget' => ?_⟩
        rw [Table.get?_remove] at hget'
        split at hget'
        next => cases hget'
        next => exact h.filled event' registrations' hget'
      · rw [if_neg hempty]
        refine ⟨Table.nodup_keys_put h.keys _ _, fun event' registrations' hget' => ?_⟩
        rw [Table.get?_put] at hget'
        split at hget'
        next =>
          cases hget'
          exact fun hnil => hempty (List.isEmpty_iff.mpr hnil)
        next => exact h.filled event' registrations' hget'

theorem tidy_change (h : registry.Tidy) (change : Change κ) : (registry.change change).2.Tidy := by
  cases change with
  | register event callback =>
      cases event with
      | some event => exact tidy_on h event callback
      | none => exact ⟨h.keys, h.filled⟩
  | takeBack event id =>
      cases event with
      | some event => exact tidy_off h event id
      | none => exact ⟨h.keys, h.filled⟩

/-- Taking back what is not there changes nothing. -/
theorem takeBack_of_forall_ne (h : registry.Tidy) {event : Option String} {id : Nat}
    (hnone : ∀ registration ∈ registry.under event, registration.1 ≠ id) :
    registry.change (.takeBack event id) = (.removed false, registry) := by
  have hkept := without_eq_self hnone
  cases event with
  | none =>
      simp only [under] at hkept
      simp only [change, offAll, hkept]
      simp
  | some event =>
      cases hget : registry.byEvent.get? event with
      | none => simp only [change, off_of_none registry hget]
      | some registrations =>
          rw [under, specific, hget, Option.getD_some] at hkept
          have hfilled : ¬ registrations.isEmpty := fun hempty =>
            h.filled event registrations hget (List.isEmpty_iff.mp hempty)
          simp only [change, off_of_some registry hget, hkept, if_neg hfilled,
            Table.put_eq_self hget]
          simp

theorem mem_keys_iff_specific_ne_nil (h : registry.Tidy) {event : String} :
    event ∈ registry.byEvent.keys ↔ registry.specific event ≠ [] := by
  rw [Table.mem_keys_iff, specific]
  cases hget : registry.byEvent.get? event with
  | none => simp
  | some registrations => simpa using h.filled event registrations hget

end Registry

/-! ## The log of a registry -/

/-- Numbers as they are given out: each larger than those before it, up to the last one. -/
structure Numbered (ids : List Nat) (issued : Nat) : Prop where
  increasing : ids.Pairwise (· < ·)
  le_issued : ∀ id ∈ ids, id ≤ issued

theorem Numbered.append {ids : List Nat} {issued : Nat} (h : Numbered ids issued) :
    Numbered (ids ++ [issued + 1]) (issued + 1) where
  increasing := by
    refine List.pairwise_append.mpr ⟨h.increasing, List.pairwise_singleton _ _, ?_⟩
    intro id hmem last hlast
    rw [List.mem_singleton.mp hlast]
    exact Nat.lt_succ_of_le (h.le_issued id hmem)
  le_issued id hmem := by
    rcases List.mem_append.mp hmem with hmem | hlast
    · exact Nat.le_succ_of_le (h.le_issued id hmem)
    · exact Nat.le_of_eq (List.mem_singleton.mp hlast)

theorem Numbered.sublist {ids ids' : List Nat} {issued : Nat} (h : Numbered ids issued)
    (hsublist : ids'.Sublist ids) : Numbered ids' issued :=
  ⟨h.increasing.sublist hsublist, fun id hmem => h.le_issued id (hsublist.subset hmem)⟩

namespace Usage

/-- The registry holds what is in the log, and each registration has its number. -/
structure Kept (usage : Usage κ) : Prop where
  tidy : usage.registry.Tidy
  lists : ∀ event, usage.registry.under event =
    (usage.log.filter fun entry => entry.event = event).map Entry.registration
  logged : Numbered (usage.log.map Entry.id) usage.registry.issued
  given : Numbered (usage.answers.filterMap Answer.given?) usage.registry.issued

variable {usage : Usage κ}

theorem kept_empty : Kept (⟨.empty, [], []⟩ : Usage κ) where
  tidy := ⟨List.nodup_nil, by simp [Registry.empty, Table.get?]⟩
  lists event := by cases event <;> rfl
  logged := ⟨.nil, by simp⟩
  given := ⟨.nil, by simp⟩

theorem make_register (usage : Usage κ) (event : Option String) (callback : κ) :
    usage.make (.register event callback) =
      ⟨(usage.registry.change (.register event callback)).2,
        usage.answers ++ [.registered (usage.registry.issued + 1)],
        usage.log ++ [⟨usage.registry.issued + 1, event, callback⟩]⟩ := by
  simp only [make, Registry.answer_register, entered]

theorem kept_register (h : usage.Kept) (event : Option String) (callback : κ) :
    (usage.make (.register event callback)).Kept := by
  rw [make_register]
  exact {
    tidy := Registry.tidy_change h.tidy _
    lists := fun event' => by
      rw [Registry.under_register, h.lists, h.lists, List.filter_append, List.map_append]
      split
      next heq => simp [heq, Entry.registration]
      next hne => simp [hne]
    logged := by
      rw [Registry.issued_register, List.map_append]
      exact h.logged.append
    given := by
      rw [Registry.issued_register, List.filterMap_append]
      exact h.given.append }

/-- A registration is found under an event exactly where the log has its entry. -/
theorem exists_registration_iff (h : usage.Kept) (event : Option String) (id : Nat) :
    (∃ registration ∈ usage.registry.under event, registration.1 = id) ↔
      ∃ entry ∈ usage.log, entry.has id event := by
  rw [h.lists]
  simp only [List.mem_map, List.mem_filter, decide_eq_true_eq, Entry.has_iff]
  constructor
  · rintro ⟨_, ⟨entry, ⟨hmem, hevent⟩, rfl⟩, hid⟩
    exact ⟨entry, hmem, hid, hevent⟩
  · rintro ⟨entry, hmem, hid, hevent⟩
    exact ⟨_, ⟨entry, ⟨hmem, hevent⟩, rfl⟩, hid⟩

theorem make_takeBack (h : usage.Kept) (event : Option String) (id : Nat) :
    usage.make (.takeBack event id) =
      ⟨(usage.registry.change (.takeBack event id)).2,
        usage.answers ++ [.removed (decide (∃ entry ∈ usage.log, entry.has id event))],
        usage.log.filter fun entry => ¬ entry.has id event⟩ := by
  have hfound := exists_registration_iff h event id
  simp only [make, Registry.answer_takeBack, hfound]
  by_cases hlive : ∃ entry ∈ usage.log, entry.has id event
  · simp only [hlive, decide_true, entered]
  · have hkept : (usage.log.filter fun entry => ¬ entry.has id event) = usage.log :=
      List.filter_eq_self.mpr fun entry hmem =>
        decide_eq_true fun hhas => hlive ⟨entry, hmem, hhas⟩
    simp only [hlive, decide_false, entered, hkept]

theorem without_map_registration (id : Nat) (entries : List (Entry κ)) :
    Registry.without id (entries.map Entry.registration) =
      (entries.filter fun entry => entry.id ≠ id).map Entry.registration :=
  List.filter_map

theorem kept_takeBack (h : usage.Kept) (event : Option String) (id : Nat) :
    (usage.make (.takeBack event id)).Kept := by
  rw [make_takeBack h]
  exact {
    tidy := Registry.tidy_change h.tidy _
    lists := fun event' => by
      rw [Registry.under_takeBack, h.lists, h.lists, List.filter_filter]
      split
      next heq =>
        rw [without_map_registration, List.filter_filter, heq]
        congr 1
        refine List.filter_congr fun entry _ => ?_
        by_cases hevent : entry.event = event' <;> simp [hevent]
      next hne =>
        congr 1
        refine List.filter_congr fun entry _ => ?_
        by_cases hevent : entry.event = event'
        · simp [hevent, Ne.symm hne]
        · simp [hevent]
    logged := by
      rw [Registry.issued_takeBack]
      exact h.logged.sublist (List.filter_sublist.map _)
    given := by
      rw [Registry.issued_takeBack, List.filterMap_append]
      exact (List.append_nil _).symm ▸ h.given }

theorem kept_make (h : usage.Kept) (change : Change κ) : (usage.make change).Kept := by
  cases change with
  | register event callback => exact kept_register h event callback
  | takeBack event id => exact kept_takeBack h event id

theorem kept_ofChanges (changes : List (Change κ)) : (ofChanges changes).Kept := by
  induction changes using List.reverseRecOn with
  | nil => exact kept_empty
  | append_singleton changes change ih =>
      rw [ofChanges, List.foldl_append]
      exact kept_make ih change

/-! ## Taking back -/

/-- What is taken back is the one entry of its number. -/
theorem filter_has_eq {before after : List (Entry κ)} {entry : Entry κ}
    (hdistinct : ((before ++ entry :: after).map Entry.id).Nodup) :
    ((before ++ entry :: after).filter fun other => ¬ other.has entry.id entry.event) =
      before ++ after := by
  rw [List.map_append, List.map_cons, List.nodup_middle, List.nodup_cons, ← List.map_append]
    at hdistinct
  have hkept : ((before ++ after).filter fun other => ¬ other.has entry.id entry.event) =
      before ++ after := by
    refine List.filter_eq_self.mpr fun other hmem => decide_eq_true fun hhas => ?_
    exact hdistinct.1 (List.mem_map.mpr ⟨other, hmem, (Entry.has_iff.mp hhas).1⟩)
  rw [List.filter_append] at hkept ⊢
  rw [List.filter_cons_of_neg (by simp), hkept]

theorem make_takeBack_of_log_eq (h : usage.Kept) {before after : List (Entry κ)} {entry : Entry κ}
    (hlog : usage.log = before ++ entry :: after) :
    usage.make (.takeBack entry.event entry.id) =
      ⟨(usage.registry.change (.takeBack entry.event entry.id)).2,
        usage.answers ++ [.removed true], before ++ after⟩ := by
  have hlive : ∃ other ∈ usage.log, other.has entry.id entry.event :=
    ⟨entry, by simp [hlog], by simp⟩
  have hdistinct : (usage.log.map Entry.id).Nodup := h.logged.increasing.imp Nat.ne_of_lt
  rw [make_takeBack h, decide_eq_true hlive]
  rw [hlog] at hdistinct ⊢
  rw [filter_has_eq hdistinct]

theorem make_takeBack_of_not_has (h : usage.Kept) {event : Option String} {id : Nat}
    (hnone : ∀ entry ∈ usage.log, ¬ entry.has id event) :
    usage.make (.takeBack event id) =
      ⟨usage.registry, usage.answers ++ [.removed false], usage.log⟩ := by
  have hlive : ¬ ∃ entry ∈ usage.log, entry.has id event := fun ⟨entry, hmem, hhas⟩ =>
    hnone entry hmem hhas
  have hregistry : usage.registry.change (.takeBack event id) =
      (.removed false, usage.registry) :=
    Registry.takeBack_of_forall_ne h.tidy fun registration hmem hid =>
      hlive ((exists_registration_iff h event id).mp ⟨registration, hmem, hid⟩)
  simp only [make, hregistry, entered]

/-! ## Counting -/

theorem length_under (h : usage.Kept) (event : Option String) :
    (usage.registry.under event).length = usage.log.countP fun entry => entry.event = event := by
  rw [h.lists, List.length_map, List.countP_eq_length_filter]

theorem wildcardCount_eq (h : usage.Kept) :
    usage.registry.wildcardCount = usage.log.countP fun entry => entry.event = none :=
  length_under h none

theorem length_byEvent (h : usage.Kept) :
    usage.registry.byEvent.length = (usage.log.filterMap Entry.event).dedup.length := by
  have hperm : usage.registry.byEvent.keys.Perm (usage.log.filterMap Entry.event).dedup := by
    refine (List.perm_ext_iff_of_nodup h.tidy.keys (List.nodup_dedup _)).mpr fun event => ?_
    have hlists : usage.registry.specific event = _ := h.lists (some event)
    rw [Registry.mem_keys_iff_specific_ne_nil h.tidy, hlists]
    simp [List.mem_filterMap]
  rw [← hperm.length_eq, Table.keys, List.length_map]

theorem summary_eq (h : usage.Kept) : usage.registry.summary =
    "Subscriptions \x7b events: " ++ toString (usage.log.filterMap Entry.event).dedup.length ++
      ", wildcard: " ++ toString (usage.log.countP fun entry => entry.event = none) ++ " \x7d" := by
  rw [← wildcardCount_eq h, ← length_byEvent h]
  rfl

/-! ## Calling -/

/-- The calls that an event is due by the log: the callbacks for the event, then those for every
event. -/
def due (usage : Usage κ) (event : String) (payload : π) : List (Call κ π) :=
  ((usage.log.filter fun entry => entry.event = some event) ++
    usage.log.filter fun entry => entry.event = none).map (Entry.call event payload)

theorem dueCalls_eq (h : usage.Kept) (event : String) (payload : π) :
    Run.dueCalls usage.registry event payload = usage.due event payload := by
  have hspecific : usage.registry.specific event = _ := h.lists (some event)
  have hwildcard : usage.registry.wildcard = _ := h.lists none
  rw [Run.dueCalls, due, hspecific, hwildcard, List.map_append, List.map_map, List.map_map]
  congr 1
  · refine List.map_congr_left fun entry hmem => ?_
    have hevent : entry.event = some event := of_decide_eq_true (List.mem_filter.mp hmem).2
    simp [Entry.call, Entry.registration, hevent]
  · refine List.map_congr_left fun entry hmem => ?_
    have hevent : entry.event = none := of_decide_eq_true (List.mem_filter.mp hmem).2
    simp [Entry.call, Entry.registration, hevent]

end Usage

namespace Run

/-- Callbacks that only change the state they share. -/
def quiet (act : Call κ π → σ → σ) : Behaviour κ π σ :=
  fun call state => .done (act call state)

/-- Callbacks that are quiet are called one after the other, whatever they do to the state. -/
theorem foldlM_quiet (act : Call κ π → σ → σ)
    (dispatch : String → π → Run κ π σ → Option (Nat × Run κ π σ)) (level : Nat)
    (calls : List (Call κ π)) (run : Run κ π σ) :
    calls.foldlM (fun run call => follow dispatch level (quiet act call run.state)
        (run.record (.called level call))) run =
      some ⟨run.registry, calls.foldl (fun state call => act call state) run.state,
        run.log ++ (calls.map (Happening.called level)).toArray⟩ := by
  induction calls generalizing run with
  | nil => simp
  | cons call rest ih =>
      rw [List.foldlM_cons]
      simp only [quiet, follow, record, Option.bind_eq_bind, Option.bind_some] at ih ⊢
      rw [ih]
      simp

theorem dispatch_quiet (act : Call κ π → σ → σ) (depth level : Nat) (event : String) (payload : π)
    (run : Run κ π σ) : dispatch (quiet act) (depth + 1) level event payload run =
      some ((dueCalls run.registry event payload).length,
        ⟨run.registry, (dueCalls run.registry event payload).foldl
            (fun state call => act call state) run.state,
          run.log ++
            ((dueCalls run.registry event payload).map (Happening.called level)).toArray⟩) := by
  simp only [dispatch, foldlM_quiet]
  rfl

end Run

/-! ## The registry follows the log -/

namespace Usage

/-- All that a registry answers is what its log says. -/
structure Follows (usage : Usage κ) : Prop where
  /-- No number is given twice, be it for one event or for every event. -/
  distinct : (usage.answers.filterMap Answer.given?).Nodup
  /-- Taking back what is in the log strikes that entry and no other. -/
  removes : ∀ before entry after, usage.log = before ++ entry :: after →
    ∃ registry, usage.make (.takeBack entry.event entry.id) =
      ⟨registry, usage.answers ++ [.removed true], before ++ after⟩
  /-- Taking back what is not there changes nothing, -/
  refuses : ∀ event id, (∀ entry ∈ usage.log, ¬ entry.has id event) →
    usage.make (.takeBack event id) =
      ⟨usage.registry, usage.answers ++ [.removed false], usage.log⟩
  /-- nor does a number that is there under another event or kind. -/
  foreign : ∀ entry ∈ usage.log, ∀ event ≠ entry.event,
    usage.make (.takeBack event entry.id) =
      ⟨usage.registry, usage.answers ++ [.removed false], usage.log⟩
  count : ∀ event,
    usage.registry.count event = usage.log.countP fun entry => entry.event = some event
  wildcardCount : usage.registry.wildcardCount = usage.log.countP fun entry => entry.event = none
  /-- Each callback is called once, in the order of the log, and the calls are counted. -/
  dispatch : ∀ (π σ : Type) (act : Call κ π → σ → σ) (depth level : Nat) (event : String)
    (payload : π) (state : σ) (happened : Array (Happening κ π)),
    Run.dispatch (Run.quiet act) (depth + 1) level event payload ⟨usage.registry, state, happened⟩ =
      some ((usage.due event payload).length, ⟨usage.registry,
        (usage.due event payload).foldl (fun state call => act call state) state,
        happened ++ ((usage.due event payload).map (Happening.called level)).toArray⟩)
  summary : usage.registry.summary =
    "Subscriptions \x7b events: " ++ toString (usage.log.filterMap Entry.event).dedup.length ++
      ", wildcard: " ++ toString (usage.log.countP fun entry => entry.event = none) ++ " \x7d"

/-- Whatever is registered and taken back in whatever order, the registry follows the log. -/
theorem follows_log (changes : List (Change κ)) : (ofChanges changes).Follows := by
  have hkept := kept_ofChanges changes
  have hdistinct : ((ofChanges changes).log.map Entry.id).Nodup :=
    hkept.logged.increasing.imp Nat.ne_of_lt
  exact {
    distinct := hkept.given.increasing.imp Nat.ne_of_lt
    removes := fun _ _ _ hlog => ⟨_, make_takeBack_of_log_eq hkept hlog⟩
    refuses := fun _ _ hnone => make_takeBack_of_not_has hkept hnone
    foreign := fun entry hmem event hne => by
      refine make_takeBack_of_not_has hkept fun other hother hhas => ?_
      obtain ⟨hid, hevent⟩ := Entry.has_iff.mp hhas
      have heq : other = entry := List.inj_on_of_nodup_map hdistinct hother hmem hid
      exact hne (heq ▸ hevent).symm
    count := fun event => length_under hkept (some event)
    wildcardCount := wildcardCount_eq hkept
    dispatch := fun π σ act depth level event payload state happened => by
      rw [Run.dispatch_quiet, dueCalls_eq hkept]
    summary := summary_eq hkept }

end Usage

end EventContract.Client
