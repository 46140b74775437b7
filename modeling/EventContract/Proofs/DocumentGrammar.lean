import EventContract.Proofs.ExceptLaws
import EventContract.Schema.Reading
import Mathlib.Tactic.Common

/-! # The grammar of documents

Which values are documents, and which document each of them means, stated without the readers. A
part that is absent or null means nothing.
-/

namespace EventContract.Document

/-! ## Values that are documents -/

/-- A part that is absent or null, or else is of a kind. -/
def Optional (kind : Json → Prop) (part : Option Json) : Prop :=
  part = none ∨ part = some .null ∨ ∃ value, part = some value ∧ kind value

def IsText (value : Json) : Prop :=
  ∃ text, value = .string text

/-- A list of texts that a field of the type may be restricted to. -/
def IsRestriction (type : FieldType) (value : Json) : Prop :=
  ∃ texts : List String, value = .array (texts.map .string) ∧ (texts ≠ [] → type = .string)

/-- The definition of a field, with the tag of a type. -/
def IsField (value : Json) : Prop :=
  ∃ members, ∃ type : FieldType, value = .object members ∧
    Table.get? members "type" = some (.string type.tag) ∧
    Optional IsText (Table.get? members "description") ∧
    Optional (IsRestriction type) (Table.get? members "enum")

/-- An object with the definition of a field under each of its keys. -/
def IsPayload (value : Json) : Prop :=
  ∃ members, value = .object members ∧ ∀ member ∈ members, IsField member.2

def IsEvent (value : Json) : Prop :=
  ∃ members, value = .object members ∧ Optional IsText (Table.get? members "name") ∧
    Optional IsText (Table.get? members "description") ∧
    Optional IsPayload (Table.get? members "payload")

def IsEventList (value : Json) : Prop :=
  ∃ items, value = .array items ∧ ∀ item ∈ items, IsEvent item

def IsDocument (value : Json) : Prop :=
  ∃ members, value = .object members ∧ Optional IsText (Table.get? members "endpoint") ∧
    Optional IsText (Table.get? members "extends") ∧
    Optional IsEventList (Table.get? members "events")

/-! ## What they mean -/

/-- What a part means: nothing if it is absent or null, or else what its value means. -/
inductive Means {α : Type} (meaning : Json → α → Prop) : Option Json → Option α → Prop
  | absent : Means meaning none none
  | null : Means meaning (some .null) none
  | value {value : Json} {content : α} (h : meaning value content) :
      Means meaning (some value) (some content)

def MeansText (value : Json) (text : String) : Prop :=
  value = .string text

def MeansTexts (value : Json) (texts : List String) : Prop :=
  value = .array (texts.map .string)

/-- A field is named by its key. A list without texts restricts nothing. -/
def MeansField (member : String × Json) (field : Field) : Prop :=
  ∃ members, ∃ type : FieldType, ∃ description texts, member.2 = .object members ∧
    Table.get? members "type" = some (.string type.tag) ∧
    Means MeansText (Table.get? members "description") description ∧
    Means MeansTexts (Table.get? members "enum") texts ∧
    (texts.getD [] ≠ [] → type = .string) ∧
    field = ⟨member.1, type, description.getD "", texts.filter fun texts => texts ≠ []⟩

/-- The fields of a payload are those of its members, in order. -/
def MeansPayload (value : Json) (payload : List Field) : Prop :=
  ∃ members, value = .object members ∧ List.Forall₂ MeansField members payload

def MeansEvent (value : Json) (event : Event) : Prop :=
  ∃ members name description payload, value = .object members ∧
    Means MeansText (Table.get? members "name") name ∧
    Means MeansText (Table.get? members "description") description ∧
    Means MeansPayload (Table.get? members "payload") payload ∧
    event = ⟨name.getD "", description.getD "", payload.getD []⟩

def MeansEventList (value : Json) (events : List Event) : Prop :=
  ∃ items, value = .array items ∧ List.Forall₂ MeansEvent items events

/-- An empty reference to a parent is none. -/
def MeansDocument (origin : Origin) (value : Json) (document : Document) : Prop :=
  ∃ members endpoint reference events, value = .object members ∧
    Means MeansText (Table.get? members "endpoint") endpoint ∧
    Means MeansText (Table.get? members "extends") reference ∧
    Means MeansEventList (Table.get? members "events") events ∧
    document = ⟨origin, endpoint, events, reference.filter fun text => text ≠ ""⟩

/-! ## Every value of a kind means something -/

section Kinds

variable {α β : Type}

theorem Means.exists_value {meaning : Json → α → Prop} {part : Option Json} {content : α}
    (h : Means meaning part (some content)) :
    ∃ value, part = some value ∧ meaning value content := by
  cases h with
  | value hmeaning => exact ⟨_, rfl, hmeaning⟩

theorem optional_iff_exists {kind : Json → Prop} {meaning : Json → α → Prop}
    (h : ∀ value, kind value ↔ ∃ content, meaning value content) (part : Option Json) :
    Optional kind part ↔ ∃ content, Means meaning part content := by
  constructor
  · rintro (rfl | rfl | ⟨value, rfl, hkind⟩)
    · exact ⟨none, .absent⟩
    · exact ⟨none, .null⟩
    · obtain ⟨content, hmeaning⟩ := (h value).mp hkind
      exact ⟨some content, .value hmeaning⟩
  · rintro ⟨_, hmeans⟩
    cases hmeans with
    | absent => exact .inl rfl
    | null => exact .inr (.inl rfl)
    | value hmeaning => exact .inr (.inr ⟨_, rfl, (h _).mpr ⟨_, hmeaning⟩⟩)

theorem forall_mem_iff_exists {kind : β → Prop} {meaning : β → α → Prop}
    (h : ∀ item, kind item ↔ ∃ content, meaning item content) (items : List β) :
    (∀ item ∈ items, kind item) ↔ ∃ contents, List.Forall₂ meaning items contents := by
  induction items with
  | nil => simp
  | cons item rest ih =>
      rw [List.forall_mem_cons, ih, h]
      constructor
      · rintro ⟨⟨content, hcontent⟩, contents, hcontents⟩
        exact ⟨content :: contents, .cons hcontent hcontents⟩
      · rintro ⟨_, hcontents⟩
        cases hcontents with
        | cons hcontent hrest => exact ⟨⟨_, hcontent⟩, _, hrest⟩

theorem isText_iff (value : Json) : IsText value ↔ ∃ text, MeansText value text :=
  Iff.rfl

theorem optional_isRestriction_iff (type : FieldType) (part : Option Json) :
    Optional (IsRestriction type) part ↔
      ∃ texts, Means MeansTexts part texts ∧ (texts.getD [] ≠ [] → type = .string) := by
  constructor
  · rintro (rfl | rfl | ⟨value, rfl, texts, hvalue, hstring⟩)
    · exact ⟨none, .absent, by simp⟩
    · exact ⟨none, .null, by simp⟩
    · exact ⟨some texts, .value hvalue, hstring⟩
  · rintro ⟨_, hmeans, hstring⟩
    cases hmeans with
    | absent => exact .inl rfl
    | null => exact .inr (.inl rfl)
    | value hvalue => exact .inr (.inr ⟨_, rfl, _, hvalue, hstring⟩)

theorem isField_iff (member : String × Json) :
    IsField member.2 ↔ ∃ field, MeansField member field := by
  simp only [IsField, optional_iff_exists isText_iff, optional_isRestriction_iff]
  constructor
  · rintro ⟨members, type, hvalue, htype, ⟨description, hdescription⟩, texts, htexts, hstring⟩
    exact ⟨_, members, type, description, texts, hvalue, htype, hdescription, htexts, hstring, rfl⟩
  · rintro ⟨_, members, type, description, texts, hvalue, htype, hdescription, htexts, hstring, -⟩
    exact ⟨members, type, hvalue, htype, ⟨description, hdescription⟩, texts, htexts, hstring⟩

theorem isPayload_iff (value : Json) : IsPayload value ↔ ∃ payload, MeansPayload value payload := by
  simp only [IsPayload, forall_mem_iff_exists isField_iff]
  exact ⟨fun ⟨members, hvalue, payload, h⟩ => ⟨payload, members, hvalue, h⟩,
    fun ⟨payload, members, hvalue, h⟩ => ⟨members, hvalue, payload, h⟩⟩

theorem isEvent_iff (value : Json) : IsEvent value ↔ ∃ event, MeansEvent value event := by
  simp only [IsEvent, optional_iff_exists isText_iff, optional_iff_exists isPayload_iff]
  constructor
  · rintro ⟨members, hvalue, ⟨name, hname⟩, ⟨description, hdescription⟩, payload, hpayload⟩
    exact ⟨_, members, name, description, payload, hvalue, hname, hdescription, hpayload, rfl⟩
  · rintro ⟨_, members, name, description, payload, hvalue, hname, hdescription, hpayload, -⟩
    exact ⟨members, hvalue, ⟨name, hname⟩, ⟨description, hdescription⟩, payload, hpayload⟩

theorem isEventList_iff (value : Json) :
    IsEventList value ↔ ∃ events, MeansEventList value events := by
  simp only [IsEventList, forall_mem_iff_exists isEvent_iff]
  exact ⟨fun ⟨items, hvalue, events, h⟩ => ⟨events, items, hvalue, h⟩,
    fun ⟨events, items, hvalue, h⟩ => ⟨items, hvalue, events, h⟩⟩

theorem isDocument_iff (origin : Origin) (value : Json) :
    IsDocument value ↔ ∃ document, MeansDocument origin value document := by
  simp only [IsDocument, optional_iff_exists isText_iff, optional_iff_exists isEventList_iff]
  constructor
  · rintro ⟨members, hvalue, ⟨endpoint, hendpoint⟩, ⟨reference, hreference⟩, events, hevents⟩
    exact ⟨_, members, endpoint, reference, events, hvalue, hendpoint, hreference, hevents, rfl⟩
  · rintro ⟨_, members, endpoint, reference, events, hvalue, hendpoint, hreference, hevents, -⟩
    exact ⟨members, hvalue, ⟨endpoint, hendpoint⟩, ⟨reference, hreference⟩, events, hevents⟩

end Kinds

/-! ## What the readers accept -/

section Readers

variable {origin path called : String}

theorem membersOf_eq_ok_iff {value : Json} {members : List (String × Json)} :
    membersOf origin path value = .ok members ↔ value = .object members := by
  cases value <;> simp [membersOf]

theorem optionalText_eq_ok_iff {part : Option Json} {text : Option String} :
    optionalText origin path part = .ok text ↔ Means MeansText part text := by
  constructor
  · intro h
    unfold optionalText at h
    split at h
    · cases h
      exact .absent
    · cases h
      exact .null
    · cases h
      exact .value rfl
    · cases h
  · intro h
    cases h with
    | absent => rfl
    | null => rfl
    | value h =>
        cases h
        rfl

theorem mapM_asString?_eq_some_iff {items : List Json} {texts : List String} :
    items.mapM Json.asString? = some texts ↔ items = texts.map .string := by
  induction items generalizing texts with
  | nil => cases texts <;> simp
  | cons item rest ih =>
      have hitem (text : String) : item.asString? = some text ↔ item = .string text := by
        cases item <;> simp [Json.asString?]
      cases texts with
      | nil => simp [Option.bind_eq_some_iff]
      | cons text more => simp [Option.bind_eq_some_iff, hitem, ih]

theorem allowedValues_eq_ok_iff {part : Option Json} {allowed : Option (List String)} :
    allowedValues origin path part = .ok allowed ↔
      ∃ texts, Means MeansTexts part texts ∧ allowed = texts.filter fun texts => texts ≠ [] := by
  constructor
  · intro h
    unfold allowedValues at h
    split at h
    · cases h
      exact ⟨none, .absent, rfl⟩
    · cases h
      exact ⟨none, .null, rfl⟩
    next items =>
      split at h
      next htexts =>
        cases h
        exact ⟨some [], .value (congrArg _ (mapM_asString?_eq_some_iff.mp htexts)), rfl⟩
      next texts hnonempty htexts =>
        cases h
        refine ⟨some texts, .value (congrArg _ (mapM_asString?_eq_some_iff.mp htexts)), ?_⟩
        simpa [Option.filter] using hnonempty
      next => cases h
    · cases h
  · rintro ⟨_, hmeans, rfl⟩
    cases hmeans with
    | absent => rfl
    | null => rfl
    | @value value texts hvalue =>
        subst hvalue
        rw [allowedValues, mapM_asString?_eq_some_iff.mpr rfl]
        cases texts <;> rfl

theorem typeTag_eq_ok_iff {part : Option Json} {tag : String} :
    typeTag origin path part = .ok tag ↔ part = some (.string tag) := by
  unfold typeTag
  split <;> simp_all

theorem ofTag?_eq_some_iff {tag : String} {type : FieldType} :
    FieldType.ofTag? tag = some type ↔ tag = type.tag := by
  constructor
  · intro h
    exact (show type.tag = tag by simpa using List.find?_some h).symm
  · rintro rfl
    exact FieldType.ofTag?_tag type

theorem isSome_filter_nonempty (texts : Option (List String)) :
    (texts.filter fun texts => texts ≠ []).isSome = true ↔ texts.getD [] ≠ [] := by
  cases texts <;> simp [Option.filter]

theorem readField_eq_ok_iff {name : String} {value : Json} {field : Field} :
    readField origin called path name value = .ok field ↔ MeansField (name, value) field := by
  constructor
  · intro h
    obtain ⟨members, hmembers, h⟩ := bind_eq_ok_iff.mp h
    obtain ⟨tag, htag, h⟩ := bind_eq_ok_iff.mp h
    split at h
    next => cases h
    next type htype =>
      obtain ⟨description, hdescription, h⟩ := bind_eq_ok_iff.mp h
      obtain ⟨allowed, hallowed, h⟩ := bind_eq_ok_iff.mp h
      obtain ⟨texts, htexts, rfl⟩ := allowedValues_eq_ok_iff.mp hallowed
      split at h
      next => cases h
      next hrestricted =>
        cases h
        rw [Bool.and_eq_true, isSome_filter_nonempty, decide_eq_true_eq, not_and, not_not]
          at hrestricted
        rw [ofTag?_eq_some_iff] at htype
        subst htype
        exact ⟨members, type, description, texts, membersOf_eq_ok_iff.mp hmembers,
          typeTag_eq_ok_iff.mp htag, optionalText_eq_ok_iff.mp hdescription, htexts, hrestricted,
          rfl⟩
  · rintro ⟨members, type, description, texts, hvalue, htype, hdescription, htexts, hstring, rfl⟩
    refine bind_eq_ok_iff.mpr ⟨members, membersOf_eq_ok_iff.mpr hvalue,
      bind_eq_ok_iff.mpr ⟨type.tag, typeTag_eq_ok_iff.mpr htype, ?_⟩⟩
    rw [FieldType.ofTag?_tag]
    refine bind_eq_ok_iff.mpr ⟨description, optionalText_eq_ok_iff.mpr hdescription,
      bind_eq_ok_iff.mpr ⟨_, allowedValues_eq_ok_iff.mpr ⟨texts, htexts, rfl⟩, if_neg ?_⟩⟩
    rwa [Bool.and_eq_true, isSome_filter_nonempty, decide_eq_true_eq, not_and, not_not]

theorem readPayload_eq_ok_iff {part : Option Json} {fields : List Field} :
    readPayload origin called path part = .ok fields ↔
      ∃ payload, Means MeansPayload part payload ∧ fields = payload.getD [] := by
  constructor
  · intro h
    unfold readPayload at h
    split at h
    · cases h
      exact ⟨none, .absent, rfl⟩
    · cases h
      exact ⟨none, .null, rfl⟩
    next members =>
      rw [mapM_eq_ok_iff] at h
      simp only [readField_eq_ok_iff] at h
      exact ⟨some fields, .value ⟨members, rfl, h⟩, rfl⟩
    · cases h
  · rintro ⟨_, hmeans, rfl⟩
    cases hmeans with
    | absent => rfl
    | null => rfl
    | value hvalue =>
        obtain ⟨members, rfl, hfields⟩ := hvalue
        rw [readPayload, mapM_eq_ok_iff]
        simp only [readField_eq_ok_iff]
        exact hfields

theorem readEvent_eq_ok_iff {index : Nat} {value : Json} {event : Event} :
    readEvent origin index value = .ok event ↔ MeansEvent value event := by
  constructor
  · intro h
    obtain ⟨members, hmembers, h⟩ := bind_eq_ok_iff.mp h
    obtain ⟨name, hname, h⟩ := bind_eq_ok_iff.mp h
    obtain ⟨description, hdescription, h⟩ := bind_eq_ok_iff.mp h
    obtain ⟨fields, hfields, h⟩ := bind_eq_ok_iff.mp h
    obtain ⟨payload, hpayload, rfl⟩ := readPayload_eq_ok_iff.mp hfields
    cases h
    exact ⟨members, name, description, payload, membersOf_eq_ok_iff.mp hmembers,
      optionalText_eq_ok_iff.mp hname, optionalText_eq_ok_iff.mp hdescription, hpayload, rfl⟩
  · rintro ⟨members, name, description, payload, hvalue, hname, hdescription, hpayload, rfl⟩
    exact bind_eq_ok_iff.mpr ⟨members, membersOf_eq_ok_iff.mpr hvalue,
      bind_eq_ok_iff.mpr ⟨name, optionalText_eq_ok_iff.mpr hname,
        bind_eq_ok_iff.mpr ⟨description, optionalText_eq_ok_iff.mpr hdescription,
          bind_eq_ok_iff.mpr ⟨_, readPayload_eq_ok_iff.mpr ⟨payload, hpayload, rfl⟩, rfl⟩⟩⟩⟩

theorem readEventsFrom_eq_ok_iff {index : Nat} {items : List Json} {events : List Event} :
    readEventsFrom origin index items = .ok events ↔ List.Forall₂ MeansEvent items events := by
  induction items generalizing index events with
  | nil =>
      rw [readEventsFrom, List.forall₂_nil_left_iff, Except.ok.injEq, eq_comm]
  | cons item rest ih =>
      rw [readEventsFrom, List.forall₂_cons_left_iff, bind_eq_ok_iff]
      simp only [bind_eq_ok_iff, readEvent_eq_ok_iff, ih, pure, Except.pure, Except.ok.injEq]
      constructor
      · rintro ⟨event, hevent, more, hmore, rfl⟩
        exact ⟨event, more, hevent, hmore, rfl⟩
      · rintro ⟨event, more, hevent, hmore, rfl⟩
        exact ⟨event, hevent, more, hmore, rfl⟩

theorem readEvents_eq_ok_iff {part : Option Json} {events : Option (List Event)} :
    readEvents origin part = .ok events ↔ Means MeansEventList part events := by
  constructor
  · intro h
    unfold readEvents at h
    split at h
    · cases h
      exact .absent
    · cases h
      exact .null
    next items =>
      obtain ⟨list, hlist, rfl⟩ := map_eq_ok_iff.mp h
      exact .value ⟨items, rfl, readEventsFrom_eq_ok_iff.mp hlist⟩
    · cases h
  · intro h
    cases h with
    | absent => rfl
    | null => rfl
    | value hvalue =>
        obtain ⟨items, rfl, hlist⟩ := hvalue
        exact map_eq_ok_iff.mpr ⟨_, readEventsFrom_eq_ok_iff.mpr hlist, rfl⟩

/-- A document is read from a value exactly when it is what the value means. -/
theorem ofJson_eq_ok_iff {value : Json} {origin : Origin} {document : Document} :
    ofJson value origin = .ok document ↔ MeansDocument origin value document := by
  have hfilter (reference : Option String) :
      (reference.filter fun text => !text.isEmpty) = reference.filter fun text => text ≠ "" := by
    congr 1
    funext text
    rw [Bool.eq_iff_iff]
    simp
  constructor
  · intro h
    obtain ⟨members, hmembers, h⟩ := bind_eq_ok_iff.mp h
    obtain ⟨endpoint, hendpoint, h⟩ := bind_eq_ok_iff.mp h
    obtain ⟨reference, hreference, h⟩ := bind_eq_ok_iff.mp h
    obtain ⟨events, hevents, h⟩ := bind_eq_ok_iff.mp h
    cases h
    exact ⟨members, endpoint, reference, events, membersOf_eq_ok_iff.mp hmembers,
      optionalText_eq_ok_iff.mp hendpoint, optionalText_eq_ok_iff.mp hreference,
      readEvents_eq_ok_iff.mp hevents, by rw [hfilter]⟩
  · rintro ⟨members, endpoint, reference, events, hvalue, hendpoint, hreference, hevents, rfl⟩
    rw [← hfilter]
    exact bind_eq_ok_iff.mpr ⟨members, membersOf_eq_ok_iff.mpr hvalue,
      bind_eq_ok_iff.mpr ⟨endpoint, optionalText_eq_ok_iff.mpr hendpoint,
        bind_eq_ok_iff.mpr ⟨reference, optionalText_eq_ok_iff.mpr hreference,
          bind_eq_ok_iff.mpr ⟨events, readEvents_eq_ok_iff.mpr hevents, rfl⟩⟩⟩⟩

end Readers

end EventContract.Document
