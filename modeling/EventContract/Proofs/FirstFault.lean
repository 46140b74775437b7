import EventContract.Proofs.CheckedSchema

/-! # The fault that a check reports

A check that fails reports one fault. Which one is told here without the check: by the parts that
have to be in order, and by the events that stand before the event at fault.
-/

namespace EventContract

/-! ## Faults -/

/-- What is reported of events of which one is not complete: the first such event. -/
inductive IncompleteEvent (origin : String) (events : List Event) : Problem → Prop
  | name {before after : List Event} {event : Event}
      (hsplit : events = before ++ event :: after)
      (hbefore : ∀ other ∈ before, other.IsComplete) (hname : event.name = "") :
      IncompleteEvent origin events (.missingName origin before.length)
  | payload {before after : List Event} {event : Event}
      (hsplit : events = before ++ event :: after)
      (hbefore : ∀ other ∈ before, other.IsComplete) (hname : event.name ≠ "")
      (hpayload : event.payload = []) :
      IncompleteEvent origin events (.missingPayload origin event.name)

/-- What is reported of events of which one has a reserved name or the name of an earlier one: the
first such event. A name may be both. -/
inductive RefusedName (events : List Event) : Problem → Prop
  | reserved {before after : List Event} {event : Event}
      (hsplit : events = before ++ event :: after)
      (hfree : ∀ name ∈ before.map Event.name, name ∉ reservedNames)
      (hdistinct : (before.map Event.name).Nodup) (hreserved : event.name ∈ reservedNames) :
      RefusedName events (.reservedEvent event.name)
  | repeated {before after : List Event} {event : Event}
      (hsplit : events = before ++ event :: after)
      (hfree : ∀ name ∈ before.map Event.name, name ∉ reservedNames)
      (hdistinct : (before.map Event.name).Nodup) (hreserved : event.name ∉ reservedNames)
      (hrepeated : event.name ∈ before.map Event.name) :
      RefusedName events (.duplicateEvent event.name)

/-- What is reported of events of which two have one payload type: the first event whose type an
earlier one has, and that earlier one. -/
inductive SharedType (events : List Event) : Problem → Prop
  | shared {before after : List Event} {earlier event : Event}
      (hsplit : events = before ++ event :: after)
      (hdistinct : ((before.map Event.name).map Name.payloadType).Nodup)
      (hearlier : earlier ∈ before)
      (hshared : Name.payloadType earlier.name = Name.payloadType event.name) :
      SharedType events
        (.sameIdentifier earlier.name event.name (Name.payloadType event.name))

/-- The fault of a schema that is reported: each comes up only where all before it are absent. -/
inductive Schema.FirstFault (schema : Schema) : Problem → Prop
  | endpoint (hendpoint : schema.endpoint = "") : FirstFault schema (.missingEndpoint Schema.shown)
  | event {problem : Problem} (hendpoint : schema.endpoint ≠ "")
      (hevent : IncompleteEvent Schema.shown schema.events problem) : FirstFault schema problem
  | name {problem : Problem} (hendpoint : schema.endpoint ≠ "")
      (hcomplete : ∀ event ∈ schema.events, event.IsComplete)
      (hname : RefusedName schema.events problem) : FirstFault schema problem
  | type {problem : Problem} (hendpoint : schema.endpoint ≠ "")
      (hcomplete : ∀ event ∈ schema.events, event.IsComplete)
      (hfree : ∀ name ∈ schema.eventNames, name ∉ reservedNames)
      (hdistinct : schema.eventNames.Nodup)
      (htype : SharedType schema.events problem) : FirstFault schema problem

/-- The fault of a document that is reported. -/
inductive Document.FirstFault (document : Document) : Problem → Prop
  | endpoint (hendpoint : ¬ isPresent document.endpoint) (hroot : document.parent = none) :
      FirstFault document (.missingEndpoint document.origin.display)
  | events (hendpoint : isPresent document.endpoint ∨ document.parent.isSome)
      (hevents : document.events = none) :
      FirstFault document (.missingEvents document.origin.display)
  | event {problem : Problem} {events : List Event}
      (hendpoint : isPresent document.endpoint ∨ document.parent.isSome)
      (hevents : document.events = some events)
      (hevent : IncompleteEvent document.origin.display events problem) :
      FirstFault document problem

/-! ## Going through events -/

/-- Goes through events with what is kept of the earlier ones, up to one that has a problem. -/
def scan {σ : Type} (problem? : σ → Event → Option Problem) (keep : σ → Event → σ) :
    σ → List Event → Except Problem Unit
  | _, [] => .ok ()
  | kept, event :: rest =>
    match problem? kept event with
    | some problem => .error problem
    | none => scan problem? keep (keep kept event) rest

section Scan

variable {σ : Type} {problem? : σ → Event → Option Problem} {keep : σ → Event → σ} {kept : σ}
  {events : List Event} {problem : Problem}

/-- A scan reports the problem of an event when it has come over all events before. -/
theorem scan_eq_error_iff : scan problem? keep kept events = .error problem ↔
    ∃ before event after, events = before ++ event :: after ∧
      scan problem? keep kept before = .ok () ∧
      problem? (before.foldl keep kept) event = some problem := by
  induction events generalizing kept with
  | nil => simp [scan]
  | cons event rest ih =>
      simp only [scan, List.cons_eq_append_iff]
      cases hevent : problem? kept event with
      | some other =>
          constructor
          · intro h
            cases h
            exact ⟨[], event, rest, .inl ⟨rfl, rfl⟩, rfl, hevent⟩
          · rintro ⟨before, last, after, ⟨rfl, hsplit⟩ | ⟨more, rfl, -⟩, hbefore, hlast⟩
            · cases hsplit
              rw [List.foldl_nil, hevent] at hlast
              cases hlast
              rfl
            · simp [scan, hevent] at hbefore
      | none =>
          rw [ih]
          constructor
          · rintro ⟨before, last, after, rfl, hbefore, hlast⟩
            refine ⟨event :: before, last, after, .inr ⟨before, rfl, rfl⟩, ?_, hlast⟩
            simpa [scan, hevent] using hbefore
          · rintro ⟨before, last, after, ⟨rfl, hsplit⟩ | ⟨more, rfl, hsplit⟩, hbefore, hlast⟩
            · cases hsplit
              rw [List.foldl_nil, hevent] at hlast
              cases hlast
            · refine ⟨more, last, after, hsplit, ?_, hlast⟩
              simpa [scan, hevent] using hbefore

end Scan

/-- The problem of an event at an index of its list. -/
def incompleteAt? (origin : String) (index : Nat) (event : Event) : Option Problem :=
  if event.name.isEmpty then some (.missingName origin index)
  else if event.payload.isEmpty then some (.missingPayload origin event.name)
  else none

/-- The problem of an event's name after events with the names `seen`. -/
def refusedAfter? (seen : List String) (event : Event) : Option Problem :=
  if event.name ∈ reservedNames then some (.reservedEvent event.name)
  else if event.name ∈ seen then some (.duplicateEvent event.name)
  else none

/-- The problem of an event's payload type after events with the names `seen`. -/
def sharedAfter? (seen : List String) (event : Event) : Option Problem :=
  (seen.find? fun name => Name.payloadType name = Name.payloadType event.name).map
    fun first => .sameIdentifier first event.name (Name.payloadType event.name)

def keepName (seen : List String) (event : Event) : List String :=
  event.name :: seen

theorem firstIncomplete_eq_scan (origin : String) (index : Nat) (events : List Event) :
    firstIncomplete origin index events =
      scan (incompleteAt? origin) (fun index _ => index + 1) index events := by
  induction events generalizing index with
  | nil => rfl
  | cons event rest ih =>
      rw [firstIncomplete, scan, incompleteAt?]
      split_ifs
      · rfl
      · rfl
      · exact ih (index + 1)

theorem firstRefusedName_eq_scan (seen : List String) (events : List Event) :
    firstRefusedName seen events = scan refusedAfter? keepName seen events := by
  induction events generalizing seen with
  | nil => rfl
  | cons event rest ih =>
      rw [firstRefusedName, scan, refusedAfter?]
      split_ifs
      · rfl
      · rfl
      · exact ih (event.name :: seen)

theorem firstCollision_eq_scan (seen : List String) (events : List Event) :
    firstCollision seen events = scan sharedAfter? keepName seen events := by
  induction events generalizing seen with
  | nil => rfl
  | cons event rest ih =>
      rw [firstCollision, scan, sharedAfter?]
      cases seen.find? fun name => Name.payloadType name = Name.payloadType event.name with
      | some first => rfl
      | none => exact ih (event.name :: seen)

theorem foldl_keepName (seen : List String) (events : List Event) :
    events.foldl keepName seen = (events.map Event.name).reverse ++ seen := by
  induction events generalizing seen with
  | nil => rfl
  | cons event rest ih => simp [keepName, ih]

theorem foldl_succ (index : Nat) (events : List Event) :
    events.foldl (fun index _ => index + 1) index = index + events.length := by
  induction events generalizing index with
  | nil => rfl
  | cons event rest ih =>
      rw [List.foldl_cons, ih, List.length_cons]
      omega

/-! ## What each check reports -/

section Reports

variable {origin : String} {events : List Event} {problem : Problem}

theorem firstIncomplete_eq_error_iff :
    firstIncomplete origin 0 events = .error problem ↔ IncompleteEvent origin events problem := by
  rw [firstIncomplete_eq_scan, scan_eq_error_iff]
  simp only [← firstIncomplete_eq_scan, firstIncomplete_eq_ok_iff, foldl_succ, Nat.zero_add]
  constructor
  · rintro ⟨before, event, after, hsplit, hbefore, hproblem⟩
    rw [incompleteAt?] at hproblem
    split_ifs at hproblem with hname hpayload
    · cases hproblem
      exact .name hsplit hbefore (String.isEmpty_iff.mp hname)
    · cases hproblem
      exact .payload hsplit hbefore (fun heq => hname (String.isEmpty_iff.mpr heq))
        (List.isEmpty_iff.mp hpayload)
  · rintro (⟨hsplit, hbefore, hname⟩ | ⟨hsplit, hbefore, hname, hpayload⟩)
    · exact ⟨_, _, _, hsplit, hbefore, by simp [incompleteAt?, hname]⟩
    · exact ⟨_, _, _, hsplit, hbefore, by simp [incompleteAt?, hname, hpayload]⟩

theorem firstRefusedName_eq_error_iff :
    firstRefusedName [] events = .error problem ↔ RefusedName events problem := by
  rw [firstRefusedName_eq_scan, scan_eq_error_iff]
  simp only [← firstRefusedName_eq_scan, firstRefusedName_eq_ok_iff, foldl_keepName,
    List.append_nil, List.not_mem_nil, not_false_eq_true, implies_true, and_true]
  constructor
  · rintro ⟨before, event, after, hsplit, ⟨hfree, hdistinct⟩, hproblem⟩
    rw [refusedAfter?] at hproblem
    split_ifs at hproblem with hreserved hrepeated
    · cases hproblem
      exact .reserved hsplit hfree hdistinct hreserved
    · cases hproblem
      exact .repeated hsplit hfree hdistinct hreserved (List.mem_reverse.mp hrepeated)
  · rintro (⟨hsplit, hfree, hdistinct, hreserved⟩ |
      ⟨hsplit, hfree, hdistinct, hreserved, hrepeated⟩)
    · exact ⟨_, _, _, hsplit, ⟨hfree, hdistinct⟩, if_pos hreserved⟩
    · refine ⟨_, _, _, hsplit, ⟨hfree, hdistinct⟩, ?_⟩
      rw [refusedAfter?, if_neg hreserved, if_pos (List.mem_reverse.mpr hrepeated)]

/-- Of names with distinct payload types, the one with a given type is found wherever it stands. -/
theorem find?_payloadType_eq {names : List String}
    (hdistinct : (names.map Name.payloadType).Nodup) {name type : String} (hname : name ∈ names)
    (htype : Name.payloadType name = type) :
    (names.find? fun other => Name.payloadType other = type) = some name := by
  cases hfind : names.find? fun other => Name.payloadType other = type with
  | none => exact absurd htype (by simpa using List.find?_eq_none.mp hfind name hname)
  | some other =>
      have hother : Name.payloadType other = type := by simpa using List.find?_some hfind
      rw [List.inj_on_of_nodup_map hdistinct (List.mem_of_find?_eq_some hfind) hname
        (hother.trans htype.symm)]

theorem firstCollision_eq_error_iff :
    firstCollision [] events = .error problem ↔ SharedType events problem := by
  rw [firstCollision_eq_scan, scan_eq_error_iff]
  simp only [← firstCollision_eq_scan, firstCollision_eq_ok_iff, foldl_keepName,
    List.append_nil, List.not_mem_nil, false_implies, implies_true, and_true]
  constructor
  · rintro ⟨before, event, after, hsplit, hdistinct, hproblem⟩
    obtain ⟨first, hfind, rfl⟩ := Option.map_eq_some_iff.mp hproblem
    obtain ⟨earlier, hearlier, rfl⟩ :=
      List.mem_map.mp (List.mem_reverse.mp (List.mem_of_find?_eq_some hfind))
    exact .shared hsplit hdistinct hearlier (by simpa using List.find?_some hfind)
  · intro h
    cases h with
    | @shared before after earlier event hsplit hdistinct hearlier hshared =>
        have hreversed : ((before.map Event.name).reverse.map Name.payloadType).Nodup := by
          rwa [List.map_reverse, List.nodup_reverse]
        have hmem : earlier.name ∈ (before.map Event.name).reverse :=
          List.mem_reverse.mpr (List.mem_map_of_mem hearlier)
        refine ⟨before, event, after, hsplit, hdistinct, ?_⟩
        rw [sharedAfter?, find?_payloadType_eq hreversed hmem hshared, Option.map_some]

end Reports

/-- A schema fails its check with the first of its faults. -/
theorem Schema.check_eq_error_iff {schema : Schema} {problem : Problem} :
    schema.check = .error problem ↔ schema.FirstFault problem := by
  unfold check
  split
  next hempty =>
    rw [String.isEmpty_iff] at hempty
    constructor
    · intro h
      cases h
      exact .endpoint hempty
    · intro h
      cases h with
      | endpoint => rfl
      | event hendpoint | name hendpoint | type hendpoint => exact absurd hempty hendpoint
  next hempty =>
    have hendpoint : schema.endpoint ≠ "" := fun heq => hempty (String.isEmpty_iff.mpr heq)
    rw [bind_unit_eq_error_iff, bind_unit_eq_error_iff, firstIncomplete_eq_error_iff,
      firstRefusedName_eq_error_iff, firstCollision_eq_error_iff, firstIncomplete_eq_ok_iff,
      firstRefusedName_eq_ok_iff]
    constructor
    · rintro (hevent | ⟨hcomplete, hname | ⟨⟨hfree, hdistinct, -⟩, htype⟩⟩)
      · exact .event hendpoint hevent
      · exact .name hendpoint hcomplete hname
      · exact .type hendpoint hcomplete hfree hdistinct htype
    · intro h
      cases h with
      | endpoint hnone => exact absurd hnone hendpoint
      | event _ hevent => exact .inl hevent
      | name _ hcomplete hname => exact .inr ⟨hcomplete, .inl hname⟩
      | type _ hcomplete hfree hdistinct htype =>
          exact .inr ⟨hcomplete, .inr ⟨⟨hfree, hdistinct, by simp⟩, htype⟩⟩

/-- A document fails its check with the first of its faults. -/
theorem Document.check_eq_error_iff {document : Document} {problem : Problem} :
    document.check = .error problem ↔ document.FirstFault problem := by
  have hopen : (!isPresent document.endpoint && document.parent.isNone) = true ↔
      ¬ isPresent document.endpoint ∧ document.parent = none := by simp
  unfold check
  split
  next hnone =>
    rw [hopen] at hnone
    constructor
    · intro h
      cases h
      exact .endpoint hnone.1 hnone.2
    · intro h
      cases h with
      | endpoint => rfl
      | events hendpoint | event hendpoint => simp [hnone] at hendpoint
  next hnone =>
    have hendpoint : isPresent document.endpoint ∨ document.parent.isSome := by
      rwa [hopen, not_and_or, not_not, ← ne_eq, ← Option.isSome_iff_ne_none] at hnone
    cases hevents : document.events with
    | none =>
        constructor
        · intro h
          cases h
          exact .events hendpoint hevents
        · intro h
          cases h with
          | endpoint hmissing hroot => simp [hmissing, hroot] at hendpoint
          | events => rfl
          | event _ hsome => cases hevents.symm.trans hsome
    | some events =>
        rw [firstIncomplete_eq_error_iff]
        constructor
        · exact fun hevent => .event hendpoint hevents hevent
        · intro h
          cases h with
          | endpoint hmissing hroot => simp [hmissing, hroot] at hendpoint
          | events _ hmissing => cases hevents.symm.trans hmissing
          | event _ hsome hevent =>
              cases hevents.symm.trans hsome
              exact hevent

/-- A schema passes its check exactly when its endpoint is there, every event has a name and a
payload, no name is reserved and all payload types differ, and with them the names. A document
passes exactly when its events are there, each with a name and a payload, and it has an endpoint or
a parent. Whatever does not pass fails with the first of its faults. -/
theorem check_reports_first_fault :
    (∀ schema : Schema, (schema.check = .ok () ↔ schema.WellFormed) ∧
      (schema.WellFormed → schema.eventNames.Nodup) ∧
      ∀ problem, schema.check = .error problem ↔ schema.FirstFault problem) ∧
    ∀ document : Document, (document.check = .ok () ↔ document.WellFormed) ∧
      ∀ problem, document.check = .error problem ↔ document.FirstFault problem :=
  ⟨fun schema => ⟨schema.check_eq_ok_iff, Schema.WellFormed.names,
      fun _ => Schema.check_eq_error_iff⟩,
    fun document => ⟨document.check_eq_ok_iff, fun _ => Document.check_eq_error_iff⟩⟩

/-- A repeated name comes before a shared type, although its type is shared too. -/
example :
    let event (name : String) : Event := ⟨name, "", [⟨"at", .number, "", none⟩]⟩
    Schema.check ⟨"/events", [event "a-b", event "aB", event "a-b", event "open"]⟩ =
      .error (.duplicateEvent "a-b") := by
  decide +kernel

end EventContract
