import EventContract.Proofs.ChainMerge

/-! # Putting a schema in the place of a chain

The schema of a document depends on the documents above it only through their own schema. The
parent of a document may therefore be replaced by what it comes to, and what is wrong with a chain
cannot be mended by extending it.
-/

namespace EventContract

namespace Schema

/-! ## The schema above a document -/

theorem nearestEndpoint_cons_congr {first second : List Document}
    (h : nearestEndpoint first = nearestEndpoint second) (document : Document) :
    nearestEndpoint (document :: first) = nearestEndpoint (document :: second) := by
  simp only [nearestEndpoint, List.findSome?_cons] at h ⊢
  split
  · rfl
  · exact h

theorem exists_nearestEndpoint {chain : List Document} {root : Document} (hmem : root ∈ chain)
    (hcheck : root.check = .ok ()) (hroot : root.parent = none) :
    ∃ endpoint, nearestEndpoint chain = some endpoint := by
  have hpresent : isPresent root.endpoint = true := by
    rcases ((Document.check_eq_ok_iff root).mp hcheck).endpoint with hpresent | hparent
    · exact hpresent
    · rw [hroot] at hparent
      cases hparent
  obtain ⟨text, htext, hnonempty⟩ := (Option.any_eq_true _ _).mp hpresent
  rw [← Option.isSome_iff_exists, nearestEndpoint, List.findSome?_isSome_iff]
  refine ⟨root, hmem, ?_⟩
  simpa [htext, Option.filter_some] using hnonempty

theorem complete_of_mem_declaredEvents {chain : List Document}
    (hchecked : ∀ document ∈ chain, document.check = .ok ()) {event : Event}
    (hevent : event ∈ declaredEvents chain) : event.IsComplete := by
  obtain ⟨document, hmem, hevent⟩ := List.mem_flatMap.mp hevent
  have hcheck := hchecked document (List.mem_reverse.mp hmem)
  obtain ⟨events, hsome, hcomplete⟩ := ((Document.check_eq_ok_iff document).mp hcheck).events
  rw [eventsOf, hsome] at hevent
  exact hcomplete event hevent

/-- The names that a chain has without its first document come first. -/
theorem names_merged_extend (document : Document) (chain : List Document) :
    (merged (declaredEvents chain)).map Event.name <+:
      (merged (declaredEvents (document :: chain))).map Event.name := by
  rw [names_merged, names_merged, declaredEvents_cons, List.map_append, List.eraseDups_append]
  exact List.prefix_append _ _

/-- The checks on names hold for fewer names too. -/
theorem WellFormed.of_sublist {schema part : Schema} (h : schema.WellFormed)
    (hnames : part.eventNames.Sublist schema.eventNames) (hendpoint : part.endpoint ≠ "")
    (hcomplete : ∀ event ∈ part.events, event.IsComplete) : part.WellFormed where
  endpoint := hendpoint
  complete := hcomplete
  unreserved name hname := h.unreserved name (hnames.subset hname)
  types := (hnames.map Name.payloadType).nodup h.types

/-- Where a chain has a schema, so has the chain without its first document. -/
theorem ofChain_tail {document : Document} {chain : List Document} {schema : Schema}
    (hschema : ofChain (document :: chain) = .ok schema)
    (hchecked : ∀ other ∈ chain, other.check = .ok ())
    (hroot : ∃ root ∈ chain, root.parent = none) : ∃ above, ofChain chain = .ok above := by
  obtain ⟨-, hevents, hwell⟩ := ofChain_eq_ok_iff.mp hschema
  obtain ⟨root, hmem, hparent⟩ := hroot
  obtain ⟨endpoint, hendpoint⟩ := exists_nearestEndpoint hmem (hchecked root hmem) hparent
  -- Every check on the longer chain's names is one on those of the shorter chain, which come first.
  refine ⟨⟨endpoint, merged (declaredEvents chain)⟩,
    ofChain_eq_ok_iff.mpr ⟨hendpoint, rfl, hwell.of_sublist ?_ ?_ ?_⟩⟩
  · rw [eventNames, eventNames, hevents]
    exact (names_merged_extend document chain).sublist
  · obtain ⟨-, -, -, -, ⟨-, hnonempty⟩, -⟩ := nearestEndpoint_eq_some_iff.mp hendpoint
    exact hnonempty
  · intro event hevent
    exact complete_of_mem_declaredEvents hchecked (mem_of_mem_merged hevent)

/-- A chain may be replaced by its schema when one more document is put in front. -/
theorem ofChain_asDocument {document : Document} {chain : List Document} {above schema : Schema}
    (habove : ofChain chain = .ok above) (hschema : ofChain (document :: chain) = .ok schema)
    (origin : Origin) : ofChain [document, above.asDocument origin] = .ok schema := by
  obtain ⟨hendpointAbove, heventsAbove, hwellAbove⟩ := ofChain_eq_ok_iff.mp habove
  obtain ⟨hendpoint, hevents, hwell⟩ := ofChain_eq_ok_iff.mp hschema
  refine ofChain_eq_ok_iff.mpr ⟨?_, ?_, hwell⟩
  · rw [← hendpoint]
    apply nearestEndpoint_cons_congr
    rw [hwellAbove.nearestEndpoint_asDocument, hendpointAbove]
  · calc schema.events
        = merged (declaredEvents chain ++ eventsOf document) := by
          rw [hevents, declaredEvents_cons]
      _ = merged (merged (declaredEvents chain) ++ eventsOf document) := merged_append _ _
      _ = merged (declaredEvents [document, above.asDocument origin]) := by
          rw [declaredEvents_cons, declaredEvents_asDocument, ← heventsAbove]

end Schema

namespace Shelf

variable {shelf : Shelf} {leaf child parent : Document} {schema : Schema}

/-! ## Documents above one that resolves -/

/-- A document that resolves and has a parent: its lineage goes over the parent, which resolves
too. -/
theorem exists_parent_chain (hparent : shelf.parent? child = some parent)
    (hresolved : Schema.ofDocument shelf.catalog child = .ok schema) :
    ∃ chain above, parent ∈ chain ∧ Schema.ofDocument shelf.catalog parent = .ok above ∧
      ((child :: chain).map Document.origin).Nodup ∧ child.check = .ok () ∧
      Schema.ofChain chain = .ok above ∧ Schema.ofChain (child :: chain) = .ok schema := by
  obtain ⟨_, lineage, hdistinct, hchecked, hchain⟩ := ofDocument_eq_ok_iff.mp hresolved
  cases lineage with
  | root hroot =>
      rw [parent?, hroot] at hparent
      cases hparent
  | @child _ other chain hother rest =>
      obtain rfl : other = parent := Option.some.inj (hother.symm.trans hparent)
      obtain ⟨hcheck, hrest⟩ := List.forall_mem_cons.mp hchecked
      obtain ⟨above, habove⟩ := Schema.ofChain_tail hchain hrest rest.exists_root
      have hnodup := (List.nodup_cons.mp hdistinct).2
      obtain ⟨later, rfl⟩ := rest.exists_cons
      exact ⟨_, above, List.mem_cons_self,
        ofDocument_eq_ok_iff.mpr ⟨_, rest, hnodup, hrest, habove⟩, hdistinct, hcheck, habove,
        hchain⟩

/-- All ancestors of a document that resolves do. -/
theorem ancestor_resolves (hresolved : Schema.ofDocument shelf.catalog leaf = .ok schema)
    {steps : Nat} {ancestor : Document} (hancestor : shelf.ancestor? leaf steps = some ancestor) :
    ∃ above, Schema.ofDocument shelf.catalog ancestor = .ok above := by
  induction steps generalizing ancestor with
  | zero =>
      cases hancestor
      exact ⟨schema, hresolved⟩
  | succ steps ih =>
      obtain ⟨below, hbelow, hparent⟩ := Option.bind_eq_some_iff.mp hancestor
      obtain ⟨schemaBelow, hschema⟩ := ih hbelow
      obtain ⟨-, above, -, habove, -⟩ := exists_parent_chain hparent hschema
      exact ⟨above, habove⟩

/-- A schema that is put on the shelf is what its name leads to. -/
theorem parent?_insert {key : String} (hextends : leaf.parent = some key) (document : Document) :
    (shelf.insert key document).parent? leaf = some { document with origin := .named key } := by
  rw [parent?, hextends, Option.bind_some, insert, Table.get?_put, if_pos rfl]

end Shelf

/-- The parent of a document that resolves does too, and may be replaced by its schema on the shelf
without a change to what the document comes to. So no document resolves above which another one
does not. -/
theorem flattened_parent_resolves (shelf : Shelf) (leaf parent : Document) (key : String)
    (hextends : leaf.parent = some key)
    (hkept : shelf.documents.get? key = some parent) :
    (∀ schema, Schema.ofDocument shelf.catalog leaf = .ok schema →
      ∃ above, Schema.ofDocument shelf.catalog parent = .ok above ∧
        Schema.ofDocument (shelf.insert key (above.asDocument .inline)).catalog leaf =
          .ok schema) ∧
      ∀ steps ancestor problem, shelf.ancestor? leaf steps = some ancestor →
        Schema.ofDocument shelf.catalog ancestor = .error problem →
          ∃ other, Schema.ofDocument shelf.catalog leaf = .error other := by
  constructor
  · intro schema hresolved
    have hparent : shelf.parent? leaf = some parent :=
      Shelf.parent?_eq_some_iff.mpr ⟨key, hextends, hkept⟩
    obtain ⟨chain, above, hmem, habove, hdistinct, hcheck, hchainAbove, hchain⟩ :=
      Shelf.exists_parent_chain hparent hresolved
    refine ⟨above, habove, Shelf.ofDocument_eq_ok_iff.mpr ?_⟩
    obtain ⟨-, -, hwell⟩ := Schema.ofChain_eq_ok_iff.mp hchainAbove
    -- The schema takes over the origin of the parent, which is not that of the leaf.
    have hnew : leaf.origin ≠ .named key := by
      rw [← Shelf.origin_of_get? hkept]
      exact fun heq => (List.nodup_cons.mp hdistinct).1
        (heq ▸ List.mem_map_of_mem hmem)
    refine ⟨[leaf, above.asDocument (.named key)],
      .child (Shelf.parent?_insert hextends _) (.root rfl), ?_, ?_,
      Schema.ofChain_asDocument hchainAbove hchain _⟩
    · simpa [Schema.asDocument] using hnew
    · intro document hdocument
      rcases List.mem_cons.mp hdocument with rfl | hdocument
      · exact hcheck
      · rw [List.mem_singleton.mp hdocument]
        exact hwell.check_asDocument _
  · intro steps ancestor problem hancestor hrefused
    cases hleaf : Schema.ofDocument shelf.catalog leaf with
    | error other => exact ⟨other, rfl⟩
    | ok schema =>
        obtain ⟨above, habove⟩ := Shelf.ancestor_resolves hleaf hancestor
        rw [hrefused] at habove
        cases habove

/-- The document in the middle of the sample chain gives way to its schema. -/
theorem flattened_parent_resolves_sample :
    Sample.leaf.parent = some "middle" ∧
      ∃ middle, Sample.shelf.documents.get? "middle" = some middle ∧
        ∃ above, Schema.ofDocument Sample.shelf.catalog middle = .ok above ∧
          Schema.ofDocument
            (Sample.shelf.insert "middle" (above.asDocument .inline)).catalog Sample.leaf =
              .ok Sample.schema :=
  ⟨rfl, _, rfl,
    (flattened_parent_resolves Sample.shelf Sample.leaf _ "middle" rfl rfl).1 Sample.schema rfl⟩

end EventContract
