import EventContract.Proofs.ChainWalk

/-! # The schema of a chain

A document that resolves has a lineage: itself, the document it extends, and so on up to one that
extends none. The schema is told by the events which the lineage declares, from the last ancestor
down, and by the endpoints it gives, from the document up.
-/

namespace EventContract

/-- What is visited from a document when every reference leads to a document and the last document
has none. -/
inductive Shelf.Lineage (shelf : Shelf) : Document → List Document → Prop
  | root {document : Document} (hroot : document.parent = none) :
      Lineage shelf document [document]
  | child {document parent : Document} {chain : List Document}
      (hparent : shelf.parent? document = some parent) (rest : Lineage shelf parent chain) :
      Lineage shelf document (document :: chain)

namespace Schema

/-! ## Merging events -/

theorem names_merged (events : List Event) :
    (merged events).map Event.name = (events.map Event.name).eraseDups := by
  have hnamed : (merged events).map Event.name =
      (Table.ofPairs (events.map fun event => (event.name, event))).keys := by
    rw [merged, Table.values, Table.keys, List.map_map]
    apply List.map_congr_left
    intro entry hentry
    obtain ⟨event, -, rfl⟩ := List.mem_map.mp (Table.mem_of_mem_ofPairs hentry)
    rfl
  rw [hnamed, Table.keys_ofPairs, List.map_map]
  rfl

theorem nodup_names_merged (events : List Event) : ((merged events).map Event.name).Nodup := by
  have hkeys := Table.nodup_keys_ofPairs (events.map fun event => (event.name, event))
  rw [Table.keys_ofPairs, List.map_map] at hkeys
  rw [names_merged]
  exact hkeys

theorem mem_of_mem_merged {events : List Event} {event : Event} (h : event ∈ merged events) :
    event ∈ events := by
  obtain ⟨entry, hentry, rfl⟩ := List.mem_map.mp h
  obtain ⟨event, hevent, rfl⟩ := List.mem_map.mp (Table.mem_of_mem_ofPairs hentry)
  exact hevent

/-- An event of a merged list is the last one of its name. -/
theorem last_of_mem_merged {events : List Event} {event : Event} (h : event ∈ merged events) :
    ∃ before after, events = before ++ event :: after ∧
      ∀ other ∈ after, other.name ≠ event.name := by
  obtain ⟨⟨name, found⟩, hentry, rfl⟩ := List.mem_map.mp h
  have hname : name = found.name := by
    obtain ⟨declared, -, heq⟩ := List.mem_map.mp (Table.mem_of_mem_ofPairs hentry)
    cases heq
    rfl
  subst hname
  have hget := Table.get?_of_mem (Table.nodup_keys_ofPairs _) hentry
  rw [Table.get?_ofPairs, ← List.map_reverse, List.find?_map, Option.map_map,
    Option.map_eq_some_iff] at hget
  obtain ⟨last, hfind, rfl⟩ := hget
  obtain ⟨-, after, before, hsplit, hafter⟩ := List.find?_eq_some_iff_append.mp hfind
  refine ⟨before.reverse, after.reverse, ?_, ?_⟩
  · rw [← List.reverse_reverse events, hsplit, List.reverse_append, List.reverse_cons,
      List.append_assoc, List.singleton_append]
    rfl
  · intro other hother
    simpa using hafter other (List.mem_reverse.mp hother)

/-- The last event of a name is in the merged list. -/
theorem mem_merged_of_last {before after : List Event} {event : Event}
    (hlast : ∀ other ∈ after, other.name ≠ event.name) :
    event ∈ merged (before ++ event :: after) := by
  have hget : (Table.ofPairs ((before ++ event :: after).map fun event => (event.name, event))).get?
      event.name = some event := by
    have hnone : after.reverse.find? (fun other => other.name = event.name) = none := by
      simpa using hlast
    rw [Table.get?_ofPairs, ← List.map_reverse, List.find?_map, Option.map_map,
      Option.map_eq_some_iff]
    refine ⟨event, ?_, rfl⟩
    rw [List.reverse_append, List.reverse_cons, List.append_assoc, List.singleton_append,
      List.find?_append]
    change ((after.reverse.find? fun other => other.name = event.name).or _) = _
    rw [hnone]
    simp
  exact List.mem_map_of_mem (Table.mem_of_get? hget)

/-- Events of distinct names are not merged any further. -/
theorem merged_eq_self {events : List Event} (hdistinct : (events.map Event.name).Nodup) :
    merged events = events := by
  have hkeys : (Table.keys (events.map fun event => (event.name, event))).Nodup := by
    rw [Table.keys, List.map_map]
    exact hdistinct
  rw [merged, Table.ofPairs_eq_self hkeys, Table.values, List.map_map]
  exact List.map_id _

/-- The first events may be merged before the others come in. -/
theorem merged_append (first second : List Event) :
    merged (first ++ second) = merged (merged first ++ second) := by
  have hentries : (merged first).map (fun event => (event.name, event)) =
      Table.ofPairs (first.map fun event => (event.name, event)) := by
    rw [merged, Table.values, List.map_map]
    conv => rhs; rw [← List.map_id (Table.ofPairs _)]
    apply List.map_congr_left
    intro entry hentry
    obtain ⟨event, -, rfl⟩ := List.mem_map.mp (Table.mem_of_mem_ofPairs hentry)
    rfl
  rw [merged, merged, List.map_append, List.map_append, hentries, Table.ofPairs_append]

/-! ## Folding a chain -/

theorem filter_nonempty_eq_none_iff (text : Option String) :
    (text.filter fun t => !t.isEmpty) = none ↔ text = none ∨ text = some "" := by
  cases text with
  | none => simp
  | some t => simp

/-- The endpoint of a chain is that of the first document which has one. -/
theorem nearestEndpoint_eq_some_iff {chain : List Document} {endpoint : String} :
    nearestEndpoint chain = some endpoint ↔
      ∃ nearer document farther, chain = nearer ++ document :: farther ∧
        (document.endpoint = some endpoint ∧ endpoint ≠ "") ∧
        ∀ other ∈ nearer, other.endpoint = none ∨ other.endpoint = some "" := by
  rw [nearestEndpoint, List.findSome?_eq_some_iff]
  simp only [Option.filter_eq_some_iff, Bool.not_eq_true', String.isEmpty_eq_false_iff,
    filter_nonempty_eq_none_iff]

theorem ofChain_eq_ok_iff {chain : List Document} {schema : Schema} :
    ofChain chain = .ok schema ↔ nearestEndpoint chain = some schema.endpoint ∧
      schema.events = merged (declaredEvents chain) ∧ schema.WellFormed := by
  rw [ofChain, bind_eq_ok_iff]
  constructor
  · rintro ⟨folded, hfold, hchecked⟩
    obtain ⟨hcheck, heq⟩ := bind_unit_eq_ok_iff.mp hchecked
    cases heq
    rw [check_eq_ok_iff] at hcheck
    unfold fold at hfold
    split at hfold
    next endpoint hendpoint =>
      cases hfold
      exact ⟨hendpoint, rfl, hcheck⟩
    next => cases hfold
  · rintro ⟨hendpoint, hevents, hwell⟩
    refine ⟨schema, ?_, bind_unit_eq_ok_iff.mpr ⟨(check_eq_ok_iff schema).mpr hwell, rfl⟩⟩
    rw [fold, hendpoint, ← hevents]

end Schema

/-! ## A schema as a document -/

/-- A schema as a document that extends none. -/
def Schema.asDocument (schema : Schema) (origin : Origin) : Document :=
  ⟨origin, some schema.endpoint, some schema.events, none⟩

namespace Schema

variable {schema : Schema}

theorem WellFormed.check_asDocument (h : schema.WellFormed) (origin : Origin) :
    (schema.asDocument origin).check = .ok () := by
  rw [Document.check_eq_ok_iff]
  refine ⟨.inl ?_, schema.events, rfl, h.complete⟩
  simp [asDocument, isPresent, h.endpoint]

theorem WellFormed.nearestEndpoint_asDocument (h : schema.WellFormed) (origin : Origin) :
    nearestEndpoint [schema.asDocument origin] = some schema.endpoint :=
  nearestEndpoint_eq_some_iff.mpr
    ⟨[], schema.asDocument origin, [], rfl, ⟨rfl, h.endpoint⟩, by simp⟩

theorem declaredEvents_cons (document : Document) (chain : List Document) :
    declaredEvents (document :: chain) = declaredEvents chain ++ eventsOf document := by
  simp [declaredEvents, List.flatMap_append]

theorem declaredEvents_asDocument (origin : Origin) :
    declaredEvents [schema.asDocument origin] = schema.events := by
  simp [declaredEvents, eventsOf, asDocument]

/-- A well-formed schema is what it comes to as a document, wherever parents would be found. -/
theorem WellFormed.ofDocument_asDocument (h : schema.WellFormed) (catalog : Catalog)
    (origin : Origin) : ofDocument catalog (schema.asDocument origin) = .ok schema := by
  have hwalk : walkFrom catalog (schema.asDocument origin) =
      .ended (schema.asDocument origin) (.ok ()) := by
    rw [walkFrom, walk, h.check_asDocument origin]
    rfl
  rw [ofDocument, hwalk]
  have hevents : schema.events = merged (declaredEvents [schema.asDocument origin]) := by
    rw [declaredEvents_asDocument, merged_eq_self h.names]
  exact ofChain_eq_ok_iff.mpr ⟨h.nearestEndpoint_asDocument origin, hevents, h⟩

end Schema

/-! ## Lineages -/

namespace Shelf

variable {shelf : Shelf} {leaf document parent last : Document} {below chain : List Document}

theorem Lineage.exists_cons (lineage : shelf.Lineage document chain) :
    ∃ rest, chain = document :: rest := by
  cases lineage with
  | root => exact ⟨_, rfl⟩
  | child => exact ⟨_, rfl⟩

/-- The last document of a lineage extends none. -/
theorem Lineage.exists_root (lineage : shelf.Lineage document chain) :
    ∃ root ∈ chain, root.parent = none := by
  induction lineage with
  | root hroot => exact ⟨_, List.mem_cons_self, hroot⟩
  | child hparent rest ih =>
      obtain ⟨root, hmem, hroot⟩ := ih
      exact ⟨root, List.mem_cons_of_mem _ hmem, hroot⟩

/-- A trail goes on to the lineage of its last document. -/
theorem Trail.lineage (trail : shelf.Trail leaf below last) (rest : shelf.Lineage last chain) :
    shelf.Lineage leaf (below.reverse ++ chain) := by
  induction trail generalizing chain with
  | leaf => exact rest
  | parent trail hcheck hparent hnew ih =>
      rw [List.reverse_cons, List.append_assoc]
      exact ih (.child hparent rest)

/-- A lineage of documents that pass their checks and differ in their origins is a trail. -/
theorem Lineage.exists_trail (rest : shelf.Lineage last chain)
    (trail : shelf.Trail leaf below last)
    (hdistinct : ((below.reverse ++ chain).map Document.origin).Nodup)
    (hchecked : ∀ document ∈ chain, document.check = .ok ()) :
    ∃ above root, shelf.Trail leaf above root ∧ root.check = .ok () ∧ root.parent = none ∧
      below.reverse ++ chain = (root :: above).reverse := by
  induction rest generalizing below with
  | @root document hroot =>
      exact ⟨below, document, trail, hchecked _ List.mem_cons_self, hroot,
        List.reverse_cons.symm⟩
  | @child document parent chain hparent rest ih =>
      obtain ⟨hcheck, hrest⟩ := List.forall_mem_cons.mp hchecked
      have hsplit : below.reverse ++ document :: chain = (document :: below).reverse ++ chain := by
        rw [List.reverse_cons, List.append_assoc, List.singleton_append]
      rw [hsplit] at hdistinct ⊢
      obtain ⟨later, rfl⟩ := rest.exists_cons
      have hnew : parent.origin ∉ (document :: below).map Document.origin := by
        intro hmem
        rw [List.map_append, List.map_reverse] at hdistinct
        exact (List.nodup_append.mp hdistinct).2.2 _ (List.mem_reverse.mpr hmem) _
          List.mem_cons_self rfl
      exact ih (.parent trail hcheck hparent hnew) hdistinct hrest

/-- A document resolves exactly when it has a lineage of documents which pass their checks and
differ in their origins, and the schema of the lineage passes its own check. -/
theorem ofDocument_eq_ok_iff {schema : Schema} :
    Schema.ofDocument shelf.catalog leaf = .ok schema ↔
      ∃ chain, shelf.Lineage leaf chain ∧ (chain.map Document.origin).Nodup ∧
        (∀ document ∈ chain, document.check = .ok ()) ∧ Schema.ofChain chain = .ok schema := by
  constructor
  · intro hresolved
    obtain ⟨visited, outcome⟩ : ∃ visited, shelf.Outcome leaf visited (.ok schema) :=
      ⟨_, outcome_iff.mpr ⟨rfl, hresolved⟩⟩
    generalize hresult : Except.ok schema = result at outcome
    cases outcome with
    | refused => cases hresult
    | missing => cases hresult
    | revisited => cases hresult
    | @rooted below root trail hcheck hroot =>
        refine ⟨(root :: below).reverse, ?_, ?_, ?_, rfl⟩
        · rw [List.reverse_cons]
          exact trail.lineage (.root hroot)
        · rw [List.map_reverse, List.nodup_reverse]
          exact trail.nodup
        · intro document hmem
          rcases List.mem_cons.mp (List.mem_reverse.mp hmem) with rfl | hmem
          · exact hcheck
          · exact trail.checked document hmem
  · rintro ⟨chain, lineage, hdistinct, hchecked, hchain⟩
    obtain ⟨above, root, trail, hcheck, hroot, heq⟩ :=
      lineage.exists_trail .leaf hdistinct hchecked
    rw [List.reverse_nil, List.nil_append] at heq
    rw [heq] at hchain
    exact hchain ▸ (Outcome.rooted trail hcheck hroot).eq.2

end Shelf

/-- What a schema has of the documents of a chain. -/
structure Schema.IsMergeOf (schema : Schema) (chain : List Document) : Prop where
  /-- Each name that is declared anywhere is there once, in the order in which the names come up
  from the last ancestor down. -/
  names : schema.eventNames = ((Schema.declaredEvents chain).map Event.name).eraseDups
  /-- An event is as a whole the last one that is declared under its name. -/
  events : ∀ event ∈ schema.events, ∃ before after,
    Schema.declaredEvents chain = before ++ event :: after ∧
      ∀ other ∈ after, other.name ≠ event.name
  /-- The endpoint is that of the nearest document which gives one. -/
  endpoint : ∃ nearer document farther, chain = nearer ++ document :: farther ∧
    (document.endpoint = some schema.endpoint ∧ schema.endpoint ≠ "") ∧
      ∀ other ∈ nearer, other.endpoint = none ∨ other.endpoint = some ""

/-- A document that resolves has a lineage, and its schema is the merge of it. -/
theorem resolved_isMergeOf (shelf : Shelf) (leaf : Document) (schema : Schema)
    (hresolved : Schema.ofDocument shelf.catalog leaf = .ok schema) :
    ∃ chain, shelf.Lineage leaf chain ∧ schema.IsMergeOf chain := by
  obtain ⟨chain, lineage, -, -, hchain⟩ := Shelf.ofDocument_eq_ok_iff.mp hresolved
  obtain ⟨hendpoint, hevents, -⟩ := Schema.ofChain_eq_ok_iff.mp hchain
  refine ⟨chain, lineage, ?_, ?_, Schema.nearestEndpoint_eq_some_iff.mp hendpoint⟩
  · rw [Schema.eventNames, hevents, Schema.names_merged]
  · intro event hevent
    rw [hevents] at hevent
    exact Schema.last_of_mem_merged hevent

/-! ## A chain of three documents -/

namespace Sample

/-- An event with a single field. -/
def event (name field : String) : Event :=
  ⟨name, "", [⟨field, .number, "", none⟩]⟩

/-- Two documents, of which one gives an event twice and no endpoint. -/
def shelf : Shelf :=
  (Shelf.empty.insert "root"
    ⟨.inline, some "/root", some [event "one" "a", event "two" "b"], none⟩).insert "middle"
      ⟨.inline, some "", some [event "three" "c", event "one" "d", event "three" "e"], some "root"⟩

/-- A document that changes one event of its ancestors and adds one. -/
def leaf : Document :=
  ⟨.inline, none, some [event "two" "f", event "four" "g"], some "middle"⟩

/-- What the three documents come to. -/
def schema : Schema :=
  ⟨"/root", [event "one" "d", event "two" "f", event "three" "e", event "four" "g"]⟩

end Sample

theorem resolved_isMergeOf_sample :
    Schema.ofDocument Sample.shelf.catalog Sample.leaf = .ok Sample.schema ∧
      ∃ chain, Sample.shelf.Lineage Sample.leaf chain ∧ Sample.schema.IsMergeOf chain :=
  ⟨rfl, resolved_isMergeOf Sample.shelf Sample.leaf Sample.schema rfl⟩

end EventContract
