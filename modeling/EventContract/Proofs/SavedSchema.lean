import EventContract.Proofs.ChainMerge
import EventContract.Proofs.LoadedDocument
import EventContract.Proofs.WrittenJson
import EventContract.Schema.Writing

/-! # Saved schemas

A schema that came from loaded documents loads back from its own text. The text leaves out what is
empty, and loading fills it in again.
-/

namespace EventContract

open Document

variable {key : String}

/-! ## Descriptions -/

theorem get?_descriptionMember (text : String) (rest : List (String × Json)) :
    Table.get? (descriptionMember text ++ rest) "description" =
      if text.isEmpty then Table.get? rest "description" else some (.string text) := by
  unfold descriptionMember
  split
  next => rfl
  next => simp [Table.get?]

theorem get?_descriptionMember_of_ne (text : String) (rest : List (String × Json))
    (hkey : key ≠ "description") :
    Table.get? (descriptionMember text ++ rest) key = Table.get? rest key := by
  unfold descriptionMember
  split
  next => rfl
  next => simp [Table.get?, hkey.symm]

theorem means_descriptionMember (text : String) {rest : List (String × Json)}
    (hrest : Table.get? rest "description" = none) :
    Means MeansText (Table.get? (descriptionMember text ++ rest) "description")
      (if text.isEmpty then none else some text) := by
  rw [get?_descriptionMember, hrest]
  split
  next => exact .absent
  next => exact .value rfl

theorem getD_description (text : String) :
    (if text.isEmpty then none else some text : Option String).getD "" = text := by
  split
  next hempty => exact (String.isEmpty_iff.mp hempty).symm
  next => rfl

/-! ## Fields -/

theorem get?_allowedMember (allowed : Option (List String)) :
    Table.get? (allowedMember allowed) "enum" =
      allowed.map fun values => .array (values.map .string) := by
  cases allowed with
  | none => rfl
  | some values => rfl

theorem get?_allowedMember_of_ne (allowed : Option (List String)) (hkey : key ≠ "enum") :
    Table.get? (allowedMember allowed) key = none := by
  cases allowed with
  | none => rfl
  | some values => simp [allowedMember, Table.get?, hkey.symm]

theorem Field.means_allowedMember {field : Field} (h : field.Declarable) :
    Means MeansTexts (field.allowed.map fun values => .array (values.map .string)) field.allowed ∧
      (field.allowed.getD [] ≠ [] → field.type = .string) ∧
      field.allowed.filter (fun texts => texts ≠ []) = field.allowed := by
  cases hallowed : field.allowed with
  | none => exact ⟨.absent, by simp, rfl⟩
  | some values =>
      obtain ⟨hstring, hnonempty⟩ := h values hallowed
      exact ⟨.value rfl, fun _ => hstring, by simp [Option.filter, hnonempty]⟩

theorem Field.means_toJson {field : Field} (h : field.Declarable) :
    MeansField (field.name, field.toJson) field := by
  have hdescription : Table.get? (allowedMember field.allowed) "description" = none :=
    get?_allowedMember_of_ne _ (by decide)
  have henum : Table.get? (descriptionMember field.description ++ allowedMember field.allowed)
      "enum" = field.allowed.map fun values => .array (values.map .string) := by
    rw [get?_descriptionMember_of_ne _ _ (by decide), get?_allowedMember]
  obtain ⟨htexts, hstring, hfilter⟩ := Field.means_allowedMember h
  refine ⟨_, field.type, _, field.allowed, rfl, rfl, means_descriptionMember _ hdescription,
    henum ▸ htexts, hstring, ?_⟩
  rw [getD_description, hfilter]

/-! ## Events -/

theorem means_payloadObject {payload : List Field} (h : ∀ field ∈ payload, field.Declarable) :
    MeansPayload (payloadObject payload) payload := by
  refine ⟨_, rfl, ?_⟩
  rw [List.forall₂_map_left_iff, List.forall₂_same]
  exact fun field hfield => Field.means_toJson (h field hfield)

theorem Event.means_toJson {event : Event} (h : event.Declarable) :
    MeansEvent event.toJson event := by
  have hdescription : Table.get? [("payload", payloadObject event.payload)] "description" = none :=
    rfl
  have hpayload : Table.get? (descriptionMember event.description ++
      [("payload", payloadObject event.payload)]) "payload" =
        some (payloadObject event.payload) := by
    rw [get?_descriptionMember_of_ne _ _ (by decide)]
    rfl
  refine ⟨_, some event.name, _, some event.payload, rfl, .value rfl,
    means_descriptionMember _ hdescription, ?_, ?_⟩
  · exact hpayload ▸ .value (means_payloadObject h.fields)
  · rw [getD_description]
    rfl

/-! ## Schemas -/

theorem Schema.means_toJson {schema : Schema} (h : ∀ event ∈ schema.events, event.Declarable)
    (origin : Origin) : MeansDocument origin schema.toJson (schema.asDocument origin) := by
  refine ⟨_, some schema.endpoint, none, some schema.events, rfl, .value rfl, .absent,
    .value ⟨_, rfl, ?_⟩, rfl⟩
  rw [List.forall₂_map_left_iff, List.forall₂_same]
  exact fun event hevent => Event.means_toJson (h event hevent)

/-! ## The text of a schema -/

theorem textual_descriptionMember {text : String} (depth : Nat) {member : String × Json}
    (h : member ∈ descriptionMember text) : member.2.Textual depth := by
  unfold descriptionMember at h
  split at h
  next => cases h
  next =>
    rw [List.mem_singleton.mp h]
    exact .string text

theorem textual_allowedMember {allowed : Option (List String)} (depth : Nat)
    {member : String × Json} (h : member ∈ allowedMember allowed) :
    member.2.Textual (depth + 1) := by
  cases allowed with
  | none => cases h
  | some values =>
      rw [List.mem_singleton.mp h]
      apply Json.Textual.array
      intro item hitem
      obtain ⟨value, -, rfl⟩ := List.mem_map.mp hitem
      exact .string value

theorem Field.textual_toJson (field : Field) (depth : Nat) :
    field.toJson.Textual (depth + 2) := by
  apply Json.Textual.object
  · unfold descriptionMember
    cases field.allowed with
    | none => split <;> simp [Table.keys, allowedMember]
    | some values => split <;> simp [Table.keys, allowedMember]
  · intro member hmember
    rcases List.mem_cons.mp hmember with rfl | hmember
    · exact .string _
    · rcases List.mem_append.mp hmember with hmember | hmember
      · exact textual_descriptionMember _ hmember
      · exact textual_allowedMember depth hmember

theorem textual_payloadObject {payload : List Field}
    (hdistinct : (payload.map Field.name).Nodup) (depth : Nat) :
    (payloadObject payload).Textual (depth + 3) := by
  apply Json.Textual.object
  · rwa [Table.keys, List.map_map]
  · intro member hmember
    obtain ⟨field, -, rfl⟩ := List.mem_map.mp hmember
    exact field.textual_toJson depth

theorem Event.textual_toJson {event : Event} (h : event.Declarable) (depth : Nat) :
    event.toJson.Textual (depth + 4) := by
  apply Json.Textual.object
  · unfold descriptionMember
    split <;> simp [Table.keys]
  · intro member hmember
    rcases List.mem_cons.mp hmember with rfl | hmember
    · exact .string _
    · rcases List.mem_append.mp hmember with hmember | hmember
      · exact textual_descriptionMember _ hmember
      · rw [List.mem_singleton.mp hmember]
        exact textual_payloadObject h.distinct depth

theorem Schema.textual_toJson {schema : Schema} (h : ∀ event ∈ schema.events, event.Declarable)
    (depth : Nat) : schema.toJson.Textual (depth + 6) := by
  apply Json.Textual.object
  · simp [Table.keys]
  · intro member hmember
    rcases List.mem_cons.mp hmember with rfl | hmember
    · exact .string _
    · rw [List.mem_singleton.mp hmember]
      apply Json.Textual.array
      intro item hitem
      obtain ⟨event, hevent, rfl⟩ := List.mem_map.mp hitem
      exact Event.textual_toJson (h event hevent) depth

/-- A schema that documents can declare loads from its text in every layout. -/
theorem Schema.ofText_write {schema : Schema} (h : ∀ event ∈ schema.events, event.Declarable)
    (layout : Json.Layout) {blanks : String}
    (hblanks : ∀ c ∈ blanks.toList, Json.isSpacing c = true) (origin : Origin) :
    Document.ofText (schema.toJson.write layout 0 ++ blanks) .json origin =
      .ok (schema.asDocument origin) := by
  -- A text of a schema is nested six levels deep, which leaves 121 of those that may be open.
  have hread : Json.read (schema.toJson.write layout 0 ++ blanks) = some schema.toJson :=
    (Schema.textual_toJson h 121).read_write layout hblanks
  rw [Document.ofText, Format.read, hread]
  exact ofJson_eq_ok_iff.mpr (Schema.means_toJson h origin)

/-! ## Schemas of loaded documents -/

theorem Shelf.Lineage.forall_mem {shelf : Shelf} {document : Document} {chain : List Document}
    (lineage : shelf.Lineage document chain) {P : Document → Prop} (hdocument : P document)
    (hshelf : ∀ entry ∈ shelf.documents, P entry.2) : ∀ other ∈ chain, P other := by
  induction lineage with
  | root => exact List.forall_mem_singleton.mpr hdocument
  | child hparent _ ih =>
      obtain ⟨key, -, hkept⟩ := Shelf.parent?_eq_some_iff.mp hparent
      exact List.forall_mem_cons.mpr ⟨hdocument, ih (hshelf _ (Table.mem_of_get? hkept))⟩

theorem Schema.declarable_of_loaded {shelf : Shelf} {leaf : Document} {schema : Schema}
    (hshelf : ∀ entry ∈ shelf.documents, entry.2.Loaded) (hleaf : leaf.Loaded)
    (hresolved : Schema.ofDocument shelf.catalog leaf = .ok schema) :
    ∀ event ∈ schema.events, event.Declarable := by
  obtain ⟨chain, lineage, -, -, hchain⟩ := Shelf.ofDocument_eq_ok_iff.mp hresolved
  obtain ⟨-, hevents, -⟩ := Schema.ofChain_eq_ok_iff.mp hchain
  have hloaded := lineage.forall_mem hleaf hshelf
  intro event hevent
  rw [hevents] at hevent
  obtain ⟨document, hdocument, hdeclared⟩ :=
    List.mem_flatMap.mp (Schema.mem_of_mem_merged hevent)
  exact (hloaded document (List.mem_reverse.mp hdocument)).declarable event hdeclared

theorem Shelf.loaded_insert {shelf : Shelf} (hshelf : ∀ entry ∈ shelf.documents, entry.2.Loaded)
    (name : String) {document : Document} (hdocument : document.Loaded) :
    ∀ entry ∈ (shelf.insert name document).documents, entry.2.Loaded := by
  intro entry hentry
  rcases Table.mem_put hentry with rfl | hentry
  · exact hdocument.moved (.named name)
  · exact hshelf entry hentry

/-- What loaded documents come to loads back from its compact text and from its pretty one, as it
is and as it is printed: the document has the same endpoint and the same events, extends none, and
comes to the same schema wherever parents would be found. -/
theorem resolved_loads_back (shelf : Shelf) (leaf : Document) (schema : Schema)
    (hshelf : ∀ entry ∈ shelf.documents, entry.2.Loaded) (hleaf : leaf.Loaded)
    (hresolved : Schema.ofDocument shelf.catalog leaf = .ok schema) (origin : Origin) :
    ∀ text ∈ [schema.toJson.compact, schema.toJson.pretty, schema.toJson.pretty ++ "\n"],
      ∃ document, Document.ofText text .json origin = .ok document ∧ document.parent = none ∧
        document.endpoint = some schema.endpoint ∧ document.events = some schema.events ∧
        ∀ catalog, Schema.ofDocument catalog document = .ok schema := by
  have hdeclarable := Schema.declarable_of_loaded hshelf hleaf hresolved
  have hwell : schema.WellFormed := by
    obtain ⟨_, -, -, -, hchain⟩ := Shelf.ofDocument_eq_ok_iff.mp hresolved
    exact (Schema.ofChain_eq_ok_iff.mp hchain).2.2
  have hloads (layout : Json.Layout) (blanks : String)
      (hblanks : ∀ c ∈ blanks.toList, Json.isSpacing c = true) :
      Document.ofText (schema.toJson.write layout 0 ++ blanks) .json origin =
        .ok (schema.asDocument origin) :=
    Schema.ofText_write hdeclarable layout hblanks origin
  have hcompact := hloads .compact "" (by simp)
  have hpretty := hloads .pretty "" (by simp)
  have hprinted := hloads .pretty "\n" (by simp [Json.isSpacing])
  rw [String.append_empty] at hcompact hpretty
  intro text htext
  refine ⟨schema.asDocument origin, ?_, rfl, rfl, rfl,
    fun catalog => hwell.ofDocument_asDocument catalog origin⟩
  simp only [List.mem_cons, List.not_mem_nil, or_false] at htext
  rcases htext with rfl | rfl | rfl
  · exact hcompact
  · exact hpretty
  · exact hprinted

/-! ## A schema of two texts -/

namespace Sample

def statusText : String :=
  "endpoint: /events\nevents:\n- name: status\n  payload:\n    level:\n      type: string\n" ++
    "      enum: [low, high]\n"

def tickText : String :=
  "extends: base\nevents:\n- name: tick\n  description: ''\n  payload:\n    at:\n" ++
    "      type: number\n      enum: []\n"

def statusEvent : Event :=
  ⟨"status", "", [⟨"level", .string, "", some ["low", "high"]⟩]⟩

def tickEvent : Event :=
  ⟨"tick", "", [⟨"at", .number, "", none⟩]⟩

def status : Document :=
  ⟨.inline, some "/events", some [statusEvent], none⟩

def tick : Document :=
  ⟨.inline, none, some [tickEvent], some "base"⟩

theorem loaded_status : status.Loaded :=
  .ofText (show Document.ofText statusText .yaml .inline = .ok status by decide +kernel)

theorem loaded_tick : tick.Loaded :=
  .ofText (show Document.ofText tickText .yaml .inline = .ok tick by decide +kernel)

end Sample

theorem resolved_loads_back_sample :
    (∀ entry ∈ (Shelf.empty.insert "base" Sample.status).documents, entry.2.Loaded) ∧
      Sample.tick.Loaded ∧
      Schema.ofDocument (Shelf.empty.insert "base" Sample.status).catalog Sample.tick =
        .ok ⟨"/events", [Sample.statusEvent, Sample.tickEvent]⟩ ∧
      ∃ document,
        Document.ofText (Schema.toJson ⟨"/events", [Sample.statusEvent, Sample.tickEvent]⟩).compact
          .json .inline = .ok document ∧
        document.events = some [Sample.statusEvent, Sample.tickEvent] := by
  have hshelf := Shelf.loaded_insert (show ∀ entry ∈ Shelf.empty.documents, entry.2.Loaded by
    simp [Shelf.empty]) "base" Sample.loaded_status
  refine ⟨hshelf, Sample.loaded_tick, rfl, ?_⟩
  obtain ⟨document, hloads, -, -, hevents, -⟩ :=
    resolved_loads_back _ Sample.tick _ hshelf Sample.loaded_tick rfl .inline _ List.mem_cons_self
  exact ⟨document, hloads, hevents⟩

end EventContract
