import EventContract.Proofs.RegistrationLog

/-! # Dispatches while callbacks run

A callback that runs may register, take back and dispatch on the registry it was called from. What
happens meanwhile is kept in one log, in which a dispatch that a callback asked for lies between the
thing before it and its answer, one level further in. Read off that log, every dispatch calls what
was registered when it started, whatever has become of it since.
-/

namespace EventContract.Client

variable {κ π σ : Type}

/-! ## What is read off a log -/

namespace Happening

/-- The number of dispatches around it. -/
def level : Happening κ π → Nat
  | .called level _ => level
  | .answered level _ _ => level

/-- The call that was made at a level, if it is one. -/
def callAt? (level : Nat) : Happening κ π → Option (Call κ π)
  | .called madeAt call => if madeAt = level then some call else none
  | .answered _ _ _ => none

/-- The change that was made to the registry, if it is one. -/
def change? : Happening κ π → Option (Change κ)
  | .answered _ (.on event callback) _ => some (.register (some event) callback)
  | .answered _ (.onAll callback) _ => some (.register none callback)
  | .answered _ (.off event id) (.removed _) => some (.takeBack (some event) id)
  | .answered _ (.offAll id) (.removed _) => some (.takeBack none id)
  | _ => none

end Happening

/-- The calls made at a level, in order. -/
def callsAt (level : Nat) (happened : List (Happening κ π)) : List (Call κ π) :=
  happened.filterMap (Happening.callAt? level)

/-- The changes made to the registry, in order. -/
def changesIn (happened : List (Happening κ π)) : List (Change κ) :=
  happened.filterMap Happening.change?

variable {registry : Registry κ} {level : Nat} {event : String} {payload : π}
  {happened more nested : List (Happening κ π)}

theorem callsAt_append (level : Nat) (happened more : List (Happening κ π)) :
    callsAt level (happened ++ more) = callsAt level happened ++ callsAt level more :=
  List.filterMap_append

theorem changesIn_append (happened more : List (Happening κ π)) :
    changesIn (happened ++ more) = changesIn happened ++ changesIn more :=
  List.filterMap_append

theorem callsAt_eq_nil (h : ∀ inner ∈ happened, level < inner.level) :
    callsAt level happened = [] := by
  refine List.filterMap_eq_nil_iff.mpr fun inner hinner => ?_
  have hlevel := h inner hinner
  cases inner with
  | called madeAt call => exact if_neg (Nat.ne_of_gt hlevel)
  | answered => rfl

namespace Registry

/-- The registry after changes. -/
def changed (registry : Registry κ) (changes : List (Change κ)) : Registry κ :=
  changes.foldl (fun registry change => (registry.change change).2) registry

theorem changed_append (registry : Registry κ) (changes more : List (Change κ)) :
    registry.changed (changes ++ more) = (registry.changed changes).changed more :=
  List.foldl_append

end Registry

theorem Usage.registry_ofChanges (changes : List (Change κ)) :
    (ofChanges changes).registry = Registry.empty.changed changes := by
  induction changes using List.reverseRecOn with
  | nil => rfl
  | append_singleton changes change ih =>
      rw [ofChanges, List.foldl_append, Registry.changed_append, ← ih]
      rfl

/-! ## Dispatches inside of others -/

/-- What comes before the answer to a dispatch ends in the happenings of that dispatch, all of them
further in than the thing before it, and they call what is due in the registry as it was changed
before them. -/
def StartedDue (registry : Registry κ) (before : List (Happening κ π)) (asked : Nat)
    (event : String) (payload : π) (answer : Answer) : Prop :=
  ∃ earlier nested, before = earlier ++ nested ∧
    (∀ last ∈ earlier.getLast?, last.level ≤ asked) ∧ (∀ inner ∈ nested, asked < inner.level) ∧
    answer = .number (Run.dueCalls (registry.changed (changesIn earlier)) event payload).length ∧
    callsAt (asked + 1) nested = Run.dueCalls (registry.changed (changesIn earlier)) event payload

/-- Each dispatch that a callback asked for was due when it started. -/
def NestedDue (registry : Registry κ) (happened : List (Happening κ π)) : Prop :=
  ∀ before asked event payload answer rest,
    happened = before ++ .answered asked (.dispatch event payload) answer :: rest →
    StartedDue registry before asked event payload answer

/-- What happens at a level and further in, the last thing at the level itself. -/
structure Passage (registry : Registry κ) (level : Nat) (happened : List (Happening κ π)) :
    Prop where
  inside : ∀ inner ∈ happened, level ≤ inner.level
  ends : ∀ last ∈ happened.getLast?, last.level ≤ level
  nested : NestedDue registry happened

theorem getLast_level_le (hfirst : ∀ last ∈ happened.getLast?, last.level ≤ level)
    (hmore : ∀ last ∈ more.getLast?, last.level ≤ level) :
    ∀ last ∈ (happened ++ more).getLast?, last.level ≤ level := by
  intro last hlast
  rw [List.getLast?_append] at hlast
  rcases Option.or_eq_some_iff.mp hlast with hlast | ⟨-, hlast⟩
  · exact hmore last hlast
  · exact hfirst last hlast

theorem StartedDue.later {before : List (Happening κ π)} {asked : Nat} {answer : Answer}
    (h : StartedDue (registry.changed (changesIn happened)) before asked event payload answer)
    (hlast : ∀ last ∈ happened.getLast?, last.level ≤ asked) :
    StartedDue registry (happened ++ before) asked event payload answer := by
  obtain ⟨earlier, nested, rfl, hearlier, hnested, hanswer, hcalls⟩ := h
  rw [← Registry.changed_append, ← changesIn_append] at hanswer hcalls
  exact ⟨happened ++ earlier, nested, (List.append_assoc _ _ _).symm,
    getLast_level_le hlast hearlier, hnested, hanswer, hcalls⟩

/-- A part that is told by its first item lies in one of two lists or in the other. -/
theorem append_eq_append_cons {α : Type} {first second front rest : List α} {item : α}
    (h : first ++ second = front ++ item :: rest) :
    (∃ later, front = first ++ later ∧ second = later ++ item :: rest) ∨
      ∃ earlier, first = front ++ item :: earlier := by
  rcases List.append_eq_append_iff.mp h with ⟨later, hfront, hsecond⟩ | ⟨earlier, hfirst, hrest⟩
  · exact .inl ⟨later, hfront, hsecond⟩
  · cases earlier with
    | nil => exact .inl ⟨[], by simpa using hfirst.symm, hrest.symm⟩
    | cons first earlier =>
        obtain ⟨rfl, -⟩ := List.cons.inj hrest
        exact .inr ⟨earlier, hfirst⟩

namespace Passage

theorem nil : Passage registry level ([] : List (Happening κ π)) where
  inside := by simp
  ends := by simp
  nested before asked event payload answer rest h := by simp at h

/-- A happening that answers no dispatch. -/
theorem single {happening : Happening κ π} (hlevel : happening.level = level)
    (hother : ∀ asked event payload answer,
      happening ≠ .answered asked (.dispatch event payload) answer) :
    Passage registry level [happening] where
  inside := by simp [hlevel]
  ends := by simp [hlevel]
  nested before asked event payload answer rest h := by
    obtain ⟨-, heq⟩ | ⟨-, heq⟩ := List.append_eq_singleton_iff.mp h.symm
    · exact absurd (List.cons.inj heq).1.symm (hother asked event payload answer)
    · cases heq

theorem append (hfirst : Passage registry level happened)
    (hsecond : Passage (registry.changed (changesIn happened)) level more) :
    Passage registry level (happened ++ more) where
  inside := List.forall_mem_append.mpr ⟨hfirst.inside, hsecond.inside⟩
  ends := getLast_level_le hfirst.ends hsecond.ends
  nested before asked event payload answer rest h := by
    rcases append_eq_append_cons h with ⟨front, rfl, hmore⟩ | ⟨rear, hhappened⟩
    · have hasked : level ≤ asked :=
        hsecond.inside (.answered asked (.dispatch event payload) answer) (by simp [hmore])
      exact (hsecond.nested front asked event payload answer rest hmore).later
        fun last hlast => Nat.le_trans (hfirst.ends last hlast) hasked
    · exact hfirst.nested before asked event payload answer rear hhappened

/-- A dispatch and its answer are a passage one level further out. -/
theorem answered (hinner : Passage registry (level + 1) happened)
    (hcalls : callsAt (level + 1) happened = Run.dueCalls registry event payload) :
    Passage registry level (happened ++ [.answered level (.dispatch event payload)
      (.number (Run.dueCalls registry event payload).length)]) where
  inside := by
    have hinside : ∀ inner ∈ happened, level ≤ inner.level := fun inner hmem =>
      Nat.le_of_succ_le (hinner.inside inner hmem)
    exact List.forall_mem_append.mpr ⟨hinside, by simp [Happening.level]⟩
  ends := by simp [Happening.level]
  nested before asked event' payload' answer rest h := by
    rcases append_eq_append_cons h with ⟨front, rfl, hmore⟩ | ⟨rear, hhappened⟩
    · obtain ⟨rfl, heq⟩ | ⟨-, heq⟩ := List.append_eq_singleton_iff.mp hmore.symm
      · cases heq
        exact ⟨[], happened, by simp, by simp, hinner.inside, rfl, hcalls⟩
      · cases heq
    · exact hinner.nested before asked event' payload' answer rear hhappened

end Passage

/-! ## Requests and reactions -/

namespace Run

variable {run between after : Run κ π σ}

/-- From one run to a later one, by the things that happened in between. -/
structure Extends (run after : Run κ π σ) (happened : List (Happening κ π)) : Prop where
  log : after.log = run.log ++ happened.toArray
  registry : after.registry = run.registry.changed (changesIn happened)

theorem Extends.nil (run : Run κ π σ) : run.Extends run [] := ⟨by simp, rfl⟩

theorem Extends.append (hfirst : run.Extends between happened)
    (hsecond : between.Extends after more) : run.Extends after (happened ++ more) where
  log := by rw [hsecond.log, hfirst.log, Array.append_assoc, List.append_toArray happened more]
  registry := by
    rw [hsecond.registry, hfirst.registry, changesIn_append, Registry.changed_append]

/-- What a way to dispatch has to do: make the calls that are due when it starts, whatever comes of
them further in. -/
def DispatchesDue (dispatch : String → π → Run κ π σ → Option (Nat × Run κ π σ)) (level : Nat) :
    Prop :=
  ∀ {event payload run called after}, dispatch event payload run = some (called, after) →
    ∃ happened, run.Extends after happened ∧ Passage run.registry level happened ∧
      callsAt level happened = dueCalls run.registry event payload ∧
      called = (dueCalls run.registry event payload).length

variable {dispatch : String → π → Run κ π σ → Option (Nat × Run κ π σ)}
  {behaviour : Behaviour κ π σ}

theorem perform_of_ne_dispatch {request : Request κ π} {answer : Answer}
    (hother : ∀ event payload, request ≠ .dispatch event payload)
    (h : perform dispatch run request = some (answer, after)) :
    after.log = run.log ∧
      after.registry = run.registry.changed (changesIn [.answered level request answer]) := by
  cases request with
  | on | onAll | count | wildcardCount | summary =>
      cases h
      exact ⟨rfl, rfl⟩
  | off event id =>
      simp only [perform, takeBack, Option.some.injEq] at h
      split at h <;> cases h <;> exact ⟨rfl, rfl⟩
  | offAll id =>
      simp only [perform, takeBack, Option.some.injEq] at h
      split at h <;> cases h <;> exact ⟨rfl, rfl⟩
  | dispatch event payload => exact absurd rfl (hother event payload)

/-- A request and its answer. -/
theorem passage_perform (hdispatch : DispatchesDue dispatch (level + 1)) {request : Request κ π}
    {answer : Answer} (h : perform dispatch run request = some (answer, after)) :
    ∃ happened, run.Extends (after.record (.answered level request answer)) happened ∧
      Passage run.registry level happened ∧ callsAt level happened = [] := by
  by_cases hnested : ∃ event payload, request = .dispatch event payload
  · obtain ⟨event, payload, rfl⟩ := hnested
    obtain ⟨⟨called, between⟩, hcalled, heq⟩ := Option.map_eq_some_iff.mp h
    cases heq
    obtain ⟨happened, hextends, hpassage, hcalls, rfl⟩ := hdispatch hcalled
    refine ⟨_, ?_, hpassage.answered hcalls, ?_⟩
    · exact hextends.append ⟨by simp [record], rfl⟩
    · rw [callsAt_append, callsAt_eq_nil hpassage.inside]
      rfl
  · have hother : ∀ event payload, request ≠ .dispatch event payload := fun event payload heq =>
      hnested ⟨event, payload, heq⟩
    obtain ⟨hlog, hregistry⟩ := perform_of_ne_dispatch hother h
    refine ⟨[.answered level request answer], ⟨by simp [record, hlog], hregistry⟩, ?_, rfl⟩
    refine .single rfl fun asked event payload other heq => ?_
    cases heq
    exact hother event payload rfl

/-- What a callback does once it is called. -/
theorem passage_follow (hdispatch : DispatchesDue dispatch (level + 1)) {reaction : Reaction κ π σ}
    (h : follow dispatch level reaction run = some after) :
    ∃ happened, run.Extends after happened ∧ Passage run.registry level happened ∧
      callsAt level happened = [] := by
  induction reaction generalizing run with
  | done state =>
      cases h
      exact ⟨[], ⟨by simp, rfl⟩, .nil, rfl⟩
  | ask state request resume ih =>
      obtain ⟨⟨answer, between⟩, hperform, hrest⟩ := Option.bind_eq_some_iff.mp h
      obtain ⟨happened, hextends, hpassage, hcalls⟩ := passage_perform hdispatch hperform
      obtain ⟨more, hextends', hpassage', hcalls'⟩ := ih _ _ hrest
      rw [hextends.registry] at hpassage'
      refine ⟨happened ++ more, ?_, hpassage.append hpassage', ?_⟩
      · exact ⟨(hextends.append hextends').log, (hextends.append hextends').registry⟩
      · rw [callsAt_append, hcalls, hcalls', List.append_nil]

/-- One call after the other. -/
theorem passage_calls (hdispatch : DispatchesDue dispatch (level + 1)) {calls : List (Call κ π)}
    (h : calls.foldlM (fun run call => follow dispatch level (behaviour call run.state)
      (run.record (.called level call))) run = some after) :
    ∃ happened, run.Extends after happened ∧ Passage run.registry level happened ∧
      callsAt level happened = calls := by
  induction calls generalizing run with
  | nil =>
      cases h
      exact ⟨[], .nil _, .nil, rfl⟩
  | cons call calls ih =>
      rw [List.foldlM_cons] at h
      obtain ⟨between, hfollow, hrest⟩ := Option.bind_eq_some_iff.mp h
      have hcalled : run.Extends (run.record (.called level call)) [.called level call] :=
        ⟨by simp [record], rfl⟩
      have hsingle : Passage run.registry level [Happening.called level call] :=
        .single rfl (by simp)
      obtain ⟨happened, hextends, hpassage, hnone⟩ := passage_follow hdispatch hfollow
      obtain ⟨more, hextends', hpassage', hcalls⟩ := ih hrest
      rw [hextends.registry] at hpassage'
      refine ⟨[.called level call] ++ happened ++ more, (hcalled.append hextends).append hextends',
        (hsingle.append hpassage).append ?_, ?_⟩
      · exact hpassage'
      · rw [callsAt_append, callsAt_append, hnone, hcalls]
        simp [callsAt, Happening.callAt?]

theorem dispatchesDue (behaviour : Behaviour κ π σ) (depth level : Nat) :
    DispatchesDue (Run.dispatch behaviour depth level) level := by
  -- The dispatches further in are those of a smaller depth.
  induction depth generalizing level with
  | zero =>
      intro event payload run called after h
      cases h
  | succ depth ih =>
      intro event payload run called after h
      obtain ⟨last, hcalls, heq⟩ := Option.bind_eq_some_iff.mp h
      cases heq
      obtain ⟨happened, hextends, hpassage, hmade⟩ := passage_calls (ih (level + 1)) hcalls
      exact ⟨happened, hextends, hpassage, hmade, rfl⟩

/-! ## The bound on the depth -/

/-- What a dispatch comes to when it ends is not changed by allowing more inside of it. -/
def Allows (less more : String → π → Run κ π σ → Option (Nat × Run κ π σ)) : Prop :=
  ∀ {event payload run result}, less event payload run = some result →
    more event payload run = some result

theorem follow_mono {less more : String → π → Run κ π σ → Option (Nat × Run κ π σ)}
    (hmore : Allows less more) {reaction : Reaction κ π σ}
    (h : follow less level reaction run = some after) :
    follow more level reaction run = some after := by
  induction reaction generalizing run with
  | done state => exact h
  | ask state request resume ih =>
      obtain ⟨⟨answer, between⟩, hperform, hrest⟩ := Option.bind_eq_some_iff.mp h
      refine Option.bind_eq_some_iff.mpr ⟨(answer, between), ?_, ih _ _ hrest⟩
      cases request with
      | dispatch event payload =>
          obtain ⟨result, hresult, heq⟩ := Option.map_eq_some_iff.mp hperform
          exact Option.map_eq_some_iff.mpr ⟨result, hmore hresult, heq⟩
      | on | onAll | off | offAll | count | wildcardCount | summary => exact hperform

theorem calls_mono {less more : String → π → Run κ π σ → Option (Nat × Run κ π σ)}
    (hmore : Allows less more) {calls : List (Call κ π)}
    (h : calls.foldlM (fun run call => follow less level (behaviour call run.state)
      (run.record (.called level call))) run = some after) :
    calls.foldlM (fun run call => follow more level (behaviour call run.state)
      (run.record (.called level call))) run = some after := by
  induction calls generalizing run with
  | nil => exact h
  | cons call calls ih =>
      rw [List.foldlM_cons] at h ⊢
      obtain ⟨between, hfollow, hrest⟩ := Option.bind_eq_some_iff.mp h
      exact Option.bind_eq_some_iff.mpr ⟨between, follow_mono hmore hfollow, ih hrest⟩

theorem dispatch_mono (behaviour : Behaviour κ π σ) (depth level : Nat) :
    Allows (Run.dispatch behaviour depth level) (Run.dispatch behaviour (depth + 1) level) := by
  induction depth generalizing level with
  | zero =>
      intro event payload run result h
      cases h
  | succ depth ih =>
      intro event payload run result h
      obtain ⟨last, hcalls, heq⟩ := Option.bind_eq_some_iff.mp h
      exact Option.bind_eq_some_iff.mpr ⟨last, calls_mono (ih (level + 1)) hcalls, heq⟩

theorem dispatch_of_le {depth depth' : Nat} (hle : depth ≤ depth') {result : Nat × Run κ π σ}
    (h : Run.dispatch behaviour depth level event payload run = some result) :
    Run.dispatch behaviour depth' level event payload run = some result := by
  induction hle with
  | refl => exact h
  | step _ ih => exact dispatch_mono behaviour _ level ih

end Run

/-! ## Served by the log -/

namespace Usage

/-- What happened is a dispatch of an event at the given level, served by what is registered: the
callbacks of the event are called in the order in which they were registered, and then those for
every event. -/
structure Serves (usage : Usage κ) (level : Nat) (event : String) (payload : π) (called : Nat)
    (happened : List (Happening κ π)) : Prop where
  calls : callsAt level happened = usage.due event payload
  /-- None of them is called twice. -/
  once : ((callsAt level happened).map Call.id).Nodup
  number : called = (usage.due event payload).length

variable {usage : Usage κ}

theorem nodup_due (h : usage.Kept) (event : String) (payload : π) :
    ((usage.due event payload).map Call.id).Nodup := by
  have hids : (usage.log.map Entry.id).Nodup := h.logged.increasing.imp Nat.ne_of_lt
  have hid : Call.id ∘ Entry.call event payload = (Entry.id : Entry κ → Nat) := rfl
  rw [due, List.map_map, hid, List.map_append]
  refine List.nodup_append.mpr
    ⟨hids.sublist (List.filter_sublist.map _), hids.sublist (List.filter_sublist.map _), ?_⟩
  -- An entry is for one event or for every event, and its number is its own.
  intro id hspecific _ hwildcard rfl
  obtain ⟨specific, hmem, hid⟩ := List.mem_map.mp hspecific
  obtain ⟨wildcard, hmem', hid'⟩ := List.mem_map.mp hwildcard
  rw [List.mem_filter, decide_eq_true_iff] at hmem hmem'
  have heq : specific = wildcard :=
    List.inj_on_of_nodup_map hids hmem.1 hmem'.1 (hid.trans hid'.symm)
  rw [heq, hmem'.2] at hmem
  cases hmem.2

theorem serves_of_dueCalls (h : usage.Kept) {called : Nat}
    (hcalls : callsAt level happened = Run.dueCalls usage.registry event payload)
    (hnumber : called = (Run.dueCalls usage.registry event payload).length) :
    usage.Serves level event payload called happened := by
  rw [dueCalls_eq h] at hcalls hnumber
  exact ⟨hcalls, hcalls ▸ nodup_due h event payload, hnumber⟩

/-- Whatever the callbacks do while a dispatch runs, as long as it ends, it is served by what was
registered when it started, and so is each dispatch that they ask for, at any depth. What they
changed counts for those that start later, inside of it or after it, and how deep dispatches may go
makes no difference. -/
theorem dispatch_served_from_start (behaviour : Behaviour κ π σ) (changes : List (Change κ))
    {depth level : Nat} {event : String} {payload : π} {state : σ}
    {log : Array (Happening κ π)} {called : Nat} {after : Run κ π σ}
    (h : Run.dispatch behaviour depth level event payload
      ⟨(ofChanges changes).registry, state, log⟩ = some (called, after)) :
    (∀ deeper ≥ depth, Run.dispatch behaviour deeper level event payload
      ⟨(ofChanges changes).registry, state, log⟩ = some (called, after)) ∧
    ∃ happened, after.log = log ++ happened.toArray ∧
      after.registry = (ofChanges (changes ++ changesIn happened)).registry ∧
      (ofChanges changes).Serves level event payload called happened ∧
      ∀ before asked event payload answer rest,
        happened = before ++ .answered asked (.dispatch event payload) answer :: rest →
        ∃ earlier nested called, before = earlier ++ nested ∧
          (∀ last ∈ earlier.getLast?, last.level ≤ asked) ∧
          (∀ inner ∈ nested, asked < inner.level) ∧ answer = .number called ∧
          (ofChanges (changes ++ changesIn earlier)).Serves (asked + 1) event payload called
            nested := by
  have hchanged (more : List (Change κ)) :
      (ofChanges (changes ++ more)).registry = (ofChanges changes).registry.changed more := by
    rw [registry_ofChanges, registry_ofChanges, Registry.changed_append]
  refine ⟨fun deeper hdeeper => Run.dispatch_of_le hdeeper h, ?_⟩
  obtain ⟨happened, hextends, hpassage, hcalls, hnumber⟩ :=
    Run.dispatchesDue behaviour depth level h
  have hserves := serves_of_dueCalls (kept_ofChanges changes) hcalls hnumber
  refine ⟨happened, hextends.log, ?_, hserves, ?_⟩
  · rw [hchanged]
    exact hextends.registry
  · intro before asked event payload answer rest hsplit
    obtain ⟨earlier, nested, hbefore, hearlier, hnested, hanswer, hcalls⟩ :=
      hpassage.nested before asked event payload answer rest hsplit
    refine ⟨earlier, nested, _, hbefore, hearlier, hnested, hanswer, ?_⟩
    rw [← hchanged] at hcalls ⊢
    exact serves_of_dueCalls (kept_ofChanges _) hcalls rfl

namespace Sample

/-- A callback that, on its first call, registers another one for the event, takes back itself and
the one for every event, and dispatches the event again. The others do nothing. -/
def restless : Behaviour Nat Unit Bool := fun call calm =>
  if call.callback = 0 ∧ ¬ calm then
    .ask true (.on call.event 7) fun _ calm =>
      .ask calm (.off call.event call.id) fun _ calm =>
        .ask calm (.offAll 2) fun _ calm =>
          .ask calm (.dispatch call.event call.payload) fun _ calm => .done calm
  else .done calm

def registered : List (Change Nat) := [.register (some "tick") 0, .register none 1]

/-- What happens up to the answer to the dispatch that the callback asks for. -/
def meanwhile : List (Happening Nat Unit) :=
  [.called 0 ⟨1, 0, false, "tick", ()⟩, .answered 0 (.on "tick" 7) (.registered 3),
    .answered 0 (.off "tick" 1) (.removed true), .answered 0 (.offAll 2) (.removed true),
    .called 1 ⟨3, 7, false, "tick", ()⟩]

/-- What happens from that answer on. -/
def thereafter : List (Happening Nat Unit) :=
  [.answered 0 (.dispatch "tick" ()) (.number 1), .called 0 ⟨2, 1, true, "tick", ()⟩]

end Sample

/-- A callback that is taken back is called all the same, and one that is registered meanwhile is
called by the dispatch that starts after it and by no other. -/
theorem dispatch_served_from_start_restless :
    Run.dispatch Sample.restless 2 0 "tick" ()
          ⟨(ofChanges Sample.registered).registry, false, #[]⟩ =
        some (2, ⟨⟨3, [("tick", [(3, 7)])], []⟩, true,
          (Sample.meanwhile ++ Sample.thereafter).toArray⟩) ∧
      (ofChanges Sample.registered).Serves 0 "tick" () 2
        (Sample.meanwhile ++ Sample.thereafter) ∧
      ∃ earlier nested called, Sample.meanwhile = earlier ++ nested ∧
        (ofChanges (Sample.registered ++ changesIn earlier)).Serves 1 "tick" () called nested := by
  have h : Run.dispatch Sample.restless 2 0 "tick" ()
      ⟨(ofChanges Sample.registered).registry, false, #[]⟩ =
        some (2, ⟨⟨3, [("tick", [(3, 7)])], []⟩, true,
          (Sample.meanwhile ++ Sample.thereafter).toArray⟩) := rfl
  obtain ⟨-, happened, hlog, -, hserves, hnested⟩ :=
    dispatch_served_from_start Sample.restless Sample.registered h
  obtain rfl : happened = Sample.meanwhile ++ Sample.thereafter := by simpa using hlog.symm
  obtain ⟨earlier, nested, called, hbefore, -, -, -, hinner⟩ := hnested _ _ _ _ _ _ rfl
  exact ⟨h, hserves, earlier, nested, called, hbefore, hinner⟩

end Usage

end EventContract.Client
