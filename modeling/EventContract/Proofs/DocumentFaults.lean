import EventContract.Proofs.DocumentGrammar
import EventContract.Proofs.TableLaws

/-! # What is wrong with a value that is no document

Everything that is wrong with a value, in the order in which a document is read. The readers stop at
the first of these faults, and succeed where there are none. Keys without a meaning have no part in
it.
-/

namespace EventContract.Document

/-! ## Faults in the order of reading -/

/-- The faults of what has to be an object: that it is none, or those of its members. -/
def objectFaults (origin path : String) (faults : List (String × Json) → List Problem) :
    Json → List Problem
  | .object members => faults members
  | _ => [.wrongKind origin path "an object"]

/-- The faults of a part that may be left out. -/
def partFaults (faults : Json → List Problem) : Option Json → List Problem
  | none | some .null => []
  | some value => faults value

def textFaults (origin path : String) : Json → List Problem
  | .string _ => []
  | _ => [.wrongKind origin path "a string"]

/-- The faults of a tag, which may not be left out. -/
def tagFaults (origin event path name : String) : Option Json → List Problem
  | some (.string tag) =>
    if tag ∈ FieldType.all.map FieldType.tag then [] else [.unknownType event name tag]
  | _ => [.wrongKind origin path "a type name"]

def textListFaults (origin path : String) : Json → List Problem
  | .array items =>
    if items.all fun item => item.asString?.isSome then []
    else [.wrongKind origin path "a list of strings"]
  | _ => [.wrongKind origin path "a list of strings"]

/-- The fault of a list that is not empty and belongs to a type other than that of strings. -/
def restrictionFaults (event name : String) : Option Json → Option Json → List Problem
  | some (.string tag), some (.array (_ :: _)) =>
    if tag = FieldType.string.tag then [] else [.enumWithoutString event name]
  | _, _ => []

def fieldFaults (origin event path name : String) : Json → List Problem :=
  objectFaults origin path fun members =>
    tagFaults origin event (path ++ ".type") name (Table.get? members "type") ++
      (partFaults (textFaults origin (path ++ ".description")) (Table.get? members "description") ++
        (partFaults (textListFaults origin (path ++ ".enum")) (Table.get? members "enum") ++
          restrictionFaults event name (Table.get? members "type") (Table.get? members "enum")))

/-- The faults of all fields, in the order of their keys. -/
def payloadFaults (origin event path : String) : Json → List Problem
  | .object members => members.flatMap fun (name, value) =>
    fieldFaults origin event (path ++ ".payload." ++ name) name value
  | _ => [.wrongKind origin (path ++ ".payload") "a map of field definitions"]

/-- What messages call an event: its name, or its place if it has none. -/
def calledName (path : String) : Option Json → String
  | some (.string name) => if name = "" then path else name
  | _ => path

def eventFaults (origin : String) (index : Nat) : Json → List Problem :=
  let path := "events[" ++ toString index ++ "]"
  objectFaults origin path fun members =>
    partFaults (textFaults origin (path ++ ".name")) (Table.get? members "name") ++
      (partFaults (textFaults origin (path ++ ".description")) (Table.get? members "description") ++
        partFaults
          (payloadFaults origin (calledName path (Table.get? members "name")) path)
          (Table.get? members "payload"))

/-- The faults of all events, in the order of the list. -/
def eventListFaults (origin : String) : Json → List Problem
  | .array items => items.zipIdx.flatMap fun (item, index) => eventFaults origin index item
  | _ => [.wrongKind origin "events" "a list"]

def documentFaults (origin : String) : Json → List Problem :=
  objectFaults origin "$" fun members =>
    partFaults (textFaults origin "endpoint") (Table.get? members "endpoint") ++
      (partFaults (textFaults origin "extends") (Table.get? members "extends") ++
        partFaults (eventListFaults origin) (Table.get? members "events"))

/-! ## Reporting the first fault -/

/-- A result in the light of all faults: the first of them, or else some content. -/
inductive Reports {α : Type} : Except Problem α → List Problem → Prop
  | content (content : α) : Reports (.ok content) []
  | fault (first : Problem) (others : List Problem) : Reports (.error first) (first :: others)

namespace Reports

variable {α β : Type} {result : Except Problem α} {first rest : List Problem}

theorem eq_error_iff (h : Reports result first) (problem : Problem) :
    result = .error problem ↔ first.head? = some problem := by
  cases h <;> simp

theorem bind {next : α → Except Problem β} (h : Reports result first)
    (hnext : ∀ content, result = .ok content → Reports (next content) rest) :
    Reports (result >>= next) (first ++ rest) := by
  cases h with
  | content content => exact hnext content rfl
  | fault problem others => exact .fault problem (others ++ rest)

/-- What is only made of the content has no faults of its own. -/
theorem map {f : α → β} (h : Reports result first) : Reports (f <$> result) first := by
  cases h with
  | content content => exact .content (f content)
  | fault problem others => exact .fault problem others

theorem mapM {read : α → Except Problem β} {faults : α → List Problem} {items : List α}
    (h : ∀ item ∈ items, Reports (read item) (faults item)) :
    Reports (items.mapM read) (items.flatMap faults) := by
  induction items with
  | nil => exact .content []
  | cons item more ih =>
      obtain ⟨hitem, hmore⟩ := List.forall_mem_cons.mp h
      rw [List.mapM_cons, List.flatMap_cons]
      refine hitem.bind fun content _ => ?_
      rw [bind_pure_comp]
      exact (ih hmore).map

end Reports

section Readers

variable {α : Type} {origin path event name : String} {value : Json} {part : Option Json}
  {rest : List Problem}

theorem reports_membersOf {next : List (String × Json) → Except Problem α}
    {faults : List (String × Json) → List Problem}
    (h : ∀ members, Reports (next members) (faults members)) :
    Reports (membersOf origin path value >>= next) (objectFaults origin path faults value) := by
  cases value with
  | object members => exact h members
  | null | bool | number | string | array => exact .fault _ []

theorem reports_optionalText :
    Reports (optionalText origin path part) (partFaults (textFaults origin path) part) := by
  cases part with
  | none => exact .content none
  | some value =>
      cases value with
      | null => exact .content none
      | string text => exact .content (some text)
      | bool | number | array | object => exact .fault _ []

theorem isSome_mapM_asString? (items : List Json) :
    (items.mapM Json.asString?).isSome = items.all fun item => item.asString?.isSome := by
  induction items with
  | nil => rfl
  | cons item more ih =>
      rw [List.mapM_cons, List.all_cons, ← ih]
      cases item.asString? with
      | none => rfl
      | some text => cases more.mapM Json.asString? <;> rfl

theorem reports_allowedValues :
    Reports (allowedValues origin path part) (partFaults (textListFaults origin path) part) := by
  cases part with
  | none => exact .content none
  | some value =>
      cases value with
      | null => exact .content none
      | array items =>
          rw [partFaults, textListFaults, ← isSome_mapM_asString?, allowedValues]
          · cases items.mapM Json.asString? with
            | none => exact .fault _ []
            | some texts =>
                cases texts with
                | nil => exact .content none
                | cons text more => exact .content (some (text :: more))
          · simp
      | string | bool | number | object => exact .fault _ []

/-- A tag that is read is the tag of a type, for which there is more to read. -/
theorem reports_tag {next : FieldType → Except Problem α}
    (h : ∀ type : FieldType, part = some (.string type.tag) → Reports (next type) rest) :
    Reports
      (typeTag origin path part >>= fun tag =>
        match FieldType.ofTag? tag with
        | none => .error (.unknownType event name tag)
        | some type => next type)
      (tagFaults origin event path name part ++ rest) := by
  unfold typeTag
  split
  next tag =>
    rw [tagFaults]
    change Reports (match FieldType.ofTag? tag with
      | none => .error (.unknownType event name tag)
      | some type => next type) _
    cases htype : FieldType.ofTag? tag with
    | none =>
        have hunknown : tag ∉ FieldType.all.map FieldType.tag := by
          rintro hmem
          obtain ⟨type, -, rfl⟩ := List.mem_map.mp hmem
          rw [FieldType.ofTag?_tag] at htype
          cases htype
        rw [if_neg hunknown]
        exact .fault _ rest
    | some type =>
        obtain rfl := ofTag?_eq_some_iff.mp htype
        have hknown : type.tag ∈ FieldType.all.map FieldType.tag :=
          List.mem_map_of_mem (by cases type <;> decide)
        rw [if_pos hknown]
        exact h type rfl
  next hnone =>
    unfold tagFaults
    split
    next tag => exact absurd rfl (hnone tag)
    next => exact .fault _ rest

theorem reports_restriction {type : FieldType} (htype : part = some (.string type.tag))
    {list : Option Json} {texts : Option (List String)} (hlist : Means MeansTexts list texts)
    (content : α) :
    Reports
      (if (texts.filter fun texts => texts ≠ []).isSome && type ≠ .string then
        .error (.enumWithoutString event name)
      else .ok content)
      (restrictionFaults event name part list) := by
  subst htype
  cases hlist with
  | absent => exact .content content
  | null => exact .content content
  | @value _ texts hvalue =>
      subst hvalue
      cases texts with
      | nil => exact .content content
      | cons text more =>
          have htag : type.tag = FieldType.string.tag ↔ type = .string := by
            cases type <;> decide
          by_cases hstring : type = .string
          · subst hstring
            exact .content content
          · have hrefused : ((some (text :: more)).filter fun texts => texts ≠ []).isSome &&
                type ≠ .string := by
              simp [hstring]
            rw [List.map_cons, restrictionFaults, if_neg (htag.not.mpr hstring), if_pos hrefused]
            exact .fault _ []

theorem reports_readField :
    Reports (readField origin event path name value) (fieldFaults origin event path name value) := by
  refine reports_membersOf fun members => reports_tag fun type htype => ?_
  refine reports_optionalText.bind fun description _ =>
    reports_allowedValues.bind fun allowed hallowed => ?_
  obtain ⟨texts, htexts, rfl⟩ := allowedValues_eq_ok_iff.mp hallowed
  exact reports_restriction htype htexts _

theorem reports_readPayload :
    Reports (readPayload origin event path part)
      (partFaults (payloadFaults origin event path) part) := by
  cases part with
  | none => exact .content []
  | some value =>
      cases value with
      | null => exact .content []
      | object members => exact Reports.mapM fun member _ => reports_readField
      | array | string | bool | number => exact .fault _ []

theorem calledName_eq {part : Option Json} {name : Option String} (h : Means MeansText part name) :
    (if (name.getD "").isEmpty then path else name.getD "") = calledName path part := by
  cases h with
  | absent => rfl
  | null => rfl
  | value hvalue =>
      cases hvalue
      simp [calledName]

theorem reports_readEvent (index : Nat) :
    Reports (readEvent origin index value) (eventFaults origin index value) := by
  refine reports_membersOf fun members => reports_optionalText.bind fun name hname =>
    reports_optionalText.bind fun description _ => ?_
  dsimp only
  rw [calledName_eq (optionalText_eq_ok_iff.mp hname), bind_pure_comp]
  exact reports_readPayload.map

theorem reports_readEventsFrom (index : Nat) (items : List Json) :
    Reports (readEventsFrom origin index items)
      ((items.zipIdx index).flatMap fun (item, index) => eventFaults origin index item) := by
  induction items generalizing index with
  | nil => exact .content []
  | cons item more ih =>
      rw [readEventsFrom, List.zipIdx_cons, List.flatMap_cons]
      refine (reports_readEvent index).bind fun event _ => ?_
      rw [bind_pure_comp]
      exact (ih (index + 1)).map

theorem reports_readEvents :
    Reports (readEvents origin part) (partFaults (eventListFaults origin) part) := by
  cases part with
  | none => exact .content none
  | some value =>
      cases value with
      | null => exact .content none
      | array items => exact (reports_readEventsFrom 0 items).map
      | object | string | bool | number => exact .fault _ []

/-- The reading of a document reports the first of all faults. -/
theorem reports_ofJson (value : Json) (origin : Origin) :
    Reports (ofJson value origin) (documentFaults origin.display value) := by
  refine reports_membersOf fun members => reports_optionalText.bind fun endpoint _ =>
    reports_optionalText.bind fun reference _ => ?_
  rw [bind_pure_comp]
  exact reports_readEvents.map

end Readers

/-! ## Keys without a meaning -/

/-- The members under some keys, each with what is kept of it. -/
def keepMembers (keys : List String) (kept : String → Json → Json)
    (members : List (String × Json)) : List (String × Json) :=
  (members.filter fun member => member.1 ∈ keys).map fun member =>
    (member.1, kept member.1 member.2)

/-- The definition of a field without keys that have no meaning there. -/
def knownField : Json → Json
  | .object members =>
    .object (keepMembers ["type", "description", "enum"] (fun _ value => value) members)
  | value => value

/-- Every key of a payload has a meaning: it names a field. -/
def knownPayload : Json → Json
  | .object members => .object (members.map fun member => (member.1, knownField member.2))
  | value => value

def knownEvent : Json → Json
  | .object members =>
    .object (keepMembers ["name", "description", "payload"]
      (fun key value => if key = "payload" then knownPayload value else value) members)
  | value => value

def knownEventList : Json → Json
  | .array items => .array (items.map knownEvent)
  | value => value

def knownDocument : Json → Json
  | .object members =>
    .object (keepMembers ["endpoint", "extends", "events"]
      (fun key value => if key = "events" then knownEventList value else value) members)
  | value => value

section Known

variable {origin path event name : String} {value : Json}

theorem get?_keepMembers {keys : List String} {key : String} (hkey : key ∈ keys)
    (kept : String → Json → Json) (members : List (String × Json)) :
    Table.get? (keepMembers keys kept members) key = (Table.get? members key).map (kept key) := by
  induction members with
  | nil => rfl
  | cons member rest ih =>
      unfold keepMembers at ih
      by_cases hsame : member.1 = key
      · simp [keepMembers, Table.get?, hsame, hkey]
      · by_cases hmem : member.1 ∈ keys <;> simp [keepMembers, Table.get?, hsame, hmem, ih]

theorem membersOf_object_bind {α : Type} {members : List (String × Json)}
    {next : List (String × Json) → Except Problem α} :
    membersOf origin path (.object members) >>= next = next members :=
  rfl

theorem readField_knownField :
    readField origin event path name (knownField value) =
      readField origin event path name value := by
  cases value with
  | object members =>
      rw [knownField, readField, readField, membersOf_object_bind, membersOf_object_bind]
      simp [get?_keepMembers]
  | null | bool | number | string | array => rfl

theorem readPayload_knownPayload {part : Option Json} :
    readPayload origin event path (part.map knownPayload) = readPayload origin event path part := by
  cases part with
  | none => rfl
  | some value =>
      cases value with
      | object members =>
          rw [Option.map_some, knownPayload, readPayload, readPayload]
          induction members with
          | nil => rfl
          | cons member rest ih =>
              rw [List.map_cons, List.mapM_cons, List.mapM_cons, ih]
              simp only [readField_knownField]
      | null | bool | number | string | array => rfl

theorem readEvent_knownEvent (index : Nat) :
    readEvent origin index (knownEvent value) = readEvent origin index value := by
  cases value with
  | object members =>
      rw [knownEvent, readEvent, readEvent, membersOf_object_bind, membersOf_object_bind]
      simp [get?_keepMembers, readPayload_knownPayload]
  | null | bool | number | string | array => rfl

theorem readEventsFrom_map_knownEvent (index : Nat) (items : List Json) :
    readEventsFrom origin index (items.map knownEvent) = readEventsFrom origin index items := by
  induction items generalizing index with
  | nil => rfl
  | cons item more ih =>
      rw [List.map_cons, readEventsFrom, readEventsFrom, readEvent_knownEvent, ih]

theorem readEvents_knownEventList {part : Option Json} :
    readEvents origin (part.map knownEventList) = readEvents origin part := by
  cases part with
  | none => rfl
  | some value =>
      cases value with
      | array items => exact congrArg (Except.map some) (readEventsFrom_map_knownEvent 0 items)
      | null | bool | number | string | object => rfl

theorem ofJson_knownDocument (value : Json) (origin : Origin) :
    ofJson (knownDocument value) origin = ofJson value origin := by
  cases value with
  | object members =>
      rw [knownDocument, ofJson, ofJson, membersOf_object_bind, membersOf_object_bind]
      simp [get?_keepMembers, readEvents_knownEventList]
  | null | bool | number | string | array => rfl

end Known

/-- Reading accepts exactly the values that are documents and gives the document that such a value
means, whatever stands under keys without a meaning. Of any other value it reports the first fault
in the order of reading. -/
theorem reads_exactly_documents (value : Json) (origin : Origin) :
    ((∃ document, ofJson value origin = .ok document) ↔ IsDocument value) ∧
      (∀ document, ofJson value origin = .ok document ↔ MeansDocument origin value document) ∧
      (∀ problem, ofJson value origin = .error problem ↔
        (documentFaults origin.display value).head? = some problem) ∧
      ∀ other, knownDocument other = knownDocument value →
        ofJson other origin = ofJson value origin := by
  refine ⟨?_, fun _ => ofJson_eq_ok_iff, (reports_ofJson value origin).eq_error_iff, ?_⟩
  · rw [isDocument_iff origin]
    exact exists_congr fun document => ofJson_eq_ok_iff
  · intro other hknown
    rw [← ofJson_knownDocument other, hknown, ofJson_knownDocument]

/-- The reference to a parent comes before the events, and an event without a name goes by its
place. -/
example :
    let field := Json.object [("type", .string "date"), ("enum", .string "monday")]
    let event := Json.object [("payload", .object [("at", field)])]
    documentFaults "<inline>" (.object [("events", .array [event]), ("extends", .bool true)]) =
      [.wrongKind "<inline>" "extends" "a string", .unknownType "events[0]" "at" "date",
        .wrongKind "<inline>" "events[0].payload.at.enum" "a list of strings"] := by
  decide +kernel

end EventContract.Document
