import EventContract.Proofs.ChainMerge

/-! # What a resolution looks at

A document is resolved by looking up the references that are met on the way, and nothing else of the
shelf. Two shelves that keep the same under these names give the same walk, step by step, and so
the same result, be it a schema or a problem.
-/

namespace EventContract.Shelf

variable {shelf other : Shelf} {leaf child parent last : Document} {below : List Document}

/-! ## References that are met -/

/-- A document extends the name that is `leaf` or is reached from it by following references. -/
def RefersTo (shelf : Shelf) (leaf : Document) (name : String) : Prop :=
  ∃ steps document, shelf.ancestor? leaf steps = some document ∧ document.parent = some name

/-- The other shelf keeps the same, or nothing as well, under each name that is met from `leaf`. -/
def AgreesFrom (other shelf : Shelf) (leaf : Document) : Prop :=
  ∀ name, shelf.RefersTo leaf name → other.documents.get? name = shelf.documents.get? name

theorem Trail.ancestor?_length (trail : Trail shelf leaf below last) :
    shelf.ancestor? leaf below.length = some last := by
  rw [trail.ancestor?_eq (Nat.le_refl _)]
  simp

theorem Trail.refersTo (trail : Trail shelf leaf below last) {name : String}
    (hreference : last.parent = some name) : shelf.RefersTo leaf name :=
  ⟨_, last, trail.ancestor?_length, hreference⟩

theorem Trail.parent?_congr (trail : Trail shelf leaf below last)
    (hagrees : other.AgreesFrom shelf leaf) : other.parent? last = shelf.parent? last := by
  unfold parent?
  cases hreference : last.parent with
  | none => rfl
  | some name => exact hagrees name (trail.refersTo hreference)

/-- A trail over one shelf is a trail over the other. -/
theorem Trail.transfer (trail : Trail shelf leaf below last)
    (hagrees : other.AgreesFrom shelf leaf) : Trail other leaf below last := by
  induction trail with
  | leaf => exact .leaf
  | parent trail hcheck hparent hnew ih =>
      exact .parent ih hcheck ((trail.parent?_congr hagrees).trans hparent) hnew

/-- What comes of a document does, whatever its outcome, on the other shelf too. -/
theorem Outcome.transfer {visited : List Document} {result : Except Problem Schema}
    (outcome : shelf.Outcome leaf visited result) (hagrees : other.AgreesFrom shelf leaf) :
    other.Outcome leaf visited result := by
  cases outcome with
  | refused trail hcheck => exact .refused (trail.transfer hagrees) hcheck
  | missing trail hcheck hreference hnone =>
      have hother := hagrees _ (trail.refersTo hreference)
      exact .missing (trail.transfer hagrees) hcheck hreference (hother.trans hnone)
  | revisited trail hcheck hparent hseen =>
      have hother := (trail.parent?_congr hagrees).trans hparent
      exact .revisited (trail.transfer hagrees) hcheck hother hseen
  | rooted trail hcheck hroot => exact .rooted (trail.transfer hagrees) hcheck hroot

theorem resolution_congr (hagrees : other.AgreesFrom shelf leaf) :
    (Schema.walkFrom other.catalog leaf).visited = (Schema.walkFrom shelf.catalog leaf).visited ∧
      Schema.ofDocument other.catalog leaf = Schema.ofDocument shelf.catalog leaf := by
  obtain ⟨visited, result, outcome⟩ := (Trail.leaf : Trail shelf leaf [] leaf).exists_outcome
  obtain ⟨hvisited, hresult⟩ := outcome.eq
  obtain ⟨hother, hotherResult⟩ := (outcome.transfer hagrees).eq
  exact ⟨hother.trans hvisited.symm, hotherResult.trans hresult.symm⟩

/-! ## Keeping documents -/

theorem get?_insert (shelf : Shelf) (name : String) (document : Document) (key : String) :
    (shelf.insert name document).documents.get? key =
      if name = key then some { document with origin := .named name }
      else shelf.documents.get? key :=
  Table.get?_put _ _ _ _

/-- A name that is not met may be given any document. -/
theorem agreesFrom_insert {name : String} (hunmet : ¬ shelf.RefersTo leaf name)
    (document : Document) : (shelf.insert name document).AgreesFrom shelf leaf := by
  intro key hkey
  rw [get?_insert, if_neg]
  rintro rfl
  exact hunmet hkey

/-- The shelf on which documents are kept one after the other. -/
def stocked (inserts : List (String × Document)) : Shelf :=
  inserts.foldl (fun shelf entry => shelf.insert entry.1 entry.2) empty

/-- The document that is kept last under a name. -/
def lastUnder (inserts : List (String × Document)) (name : String) : Option Document :=
  (inserts.reverse.find? fun entry => entry.1 = name).map Prod.snd

theorem get?_stocked (inserts : List (String × Document)) (name : String) :
    (stocked inserts).documents.get? name =
      (lastUnder inserts name).map fun document => { document with origin := .named name } := by
  -- From the end, since the last document is kept on the shelf that the others make.
  induction inserts using List.reverseRecOn with
  | nil => rfl
  | append_singleton inserts entry ih =>
      rw [stocked, List.foldl_append, List.foldl_cons, List.foldl_nil, get?_insert, lastUnder,
        List.reverse_append, List.reverse_singleton, List.singleton_append, List.find?_cons]
      by_cases hname : entry.1 = name
      · simp [hname]
      · rw [if_neg hname, decide_eq_false hname]
        exact ih

/-- Shelves that are stocked in different orders agree where the last document of a name is the
same. -/
theorem agreesFrom_stocked {inserts others : List (String × Document)}
    (hlast : ∀ name, (stocked inserts).RefersTo leaf name →
      lastUnder others name = lastUnder inserts name) :
    (stocked others).AgreesFrom (stocked inserts) leaf := by
  intro name hname
  rw [get?_stocked, get?_stocked, hlast name hname]

/-- What a document comes to, and which documents are visited for it, depends only on what is kept
under the names that are met from it. So any other name may be given a new document, or another one
in place of its own, and documents may be kept in any order in which the last one under each name
that is met stays the last. Whether the result is a schema or a problem, it stays as it is. -/
theorem resolution_local (shelf : Shelf) (leaf : Document) :
    (∀ other : Shelf, other.AgreesFrom shelf leaf →
      (Schema.walkFrom other.catalog leaf).visited =
          (Schema.walkFrom shelf.catalog leaf).visited ∧
        Schema.ofDocument other.catalog leaf = Schema.ofDocument shelf.catalog leaf) ∧
      (∀ name, ¬ shelf.RefersTo leaf name → ∀ document,
        Schema.ofDocument (shelf.insert name document).catalog leaf =
          Schema.ofDocument shelf.catalog leaf) ∧
      ∀ inserts others, (∀ name, (stocked inserts).RefersTo leaf name →
          lastUnder others name = lastUnder inserts name) →
        Schema.ofDocument (stocked others).catalog leaf =
          Schema.ofDocument (stocked inserts).catalog leaf := by
  refine ⟨fun other => resolution_congr, ?_, ?_⟩
  · intro name hunmet document
    exact (resolution_congr (agreesFrom_insert hunmet document)).2
  · intro inserts others hlast
    exact (resolution_congr (agreesFrom_stocked hlast)).2

/-! ## The sample chain beside other documents -/

/-- From the sample leaf only the documents in the middle and at the root are met. -/
theorem refersTo_sample {name : String} (h : Sample.shelf.RefersTo Sample.leaf name) :
    name = "middle" ∨ name = "root" := by
  obtain ⟨steps, document, hancestor, hreference⟩ := h
  have hroot : Sample.shelf.ancestor? Sample.leaf 2 = some _ := rfl
  match steps with
  | 0 =>
      cases hancestor
      exact .inl (Option.some.inj hreference).symm
  | 1 =>
      cases hancestor
      exact .inr (Option.some.inj hreference).symm
  | 2 =>
      cases hancestor
      cases hreference
  | further + 3 =>
      rw [ancestor?_eq_none hroot rfl (by omega)] at hancestor
      cases hancestor

/-- The leaf comes to the same with a document under a name that it does not meet, and with its
ancestors kept in another order, the middle one in place of an earlier one. -/
theorem resolution_local_sample :
    ¬ Sample.shelf.RefersTo Sample.leaf "aside" ∧
      Schema.ofDocument (Sample.shelf.insert "aside" Sample.leaf).catalog Sample.leaf =
        .ok Sample.schema ∧
      Schema.ofDocument
          (stocked (("middle", Sample.leaf) :: Sample.shelf.documents.reverse)).catalog
          Sample.leaf =
        .ok Sample.schema := by
  have hunmet : ¬ Sample.shelf.RefersTo Sample.leaf "aside" := by
    intro h
    rcases refersTo_sample h with heq | heq <;> exact absurd heq (by decide)
  obtain ⟨-, hinsert, hstocked⟩ := resolution_local Sample.shelf Sample.leaf
  refine ⟨hunmet, (hinsert "aside" hunmet Sample.leaf).trans rfl,
    (hstocked Sample.shelf.documents _ fun name hname => ?_).trans rfl⟩
  rcases refersTo_sample hname with rfl | rfl <;> rfl

end EventContract.Shelf
