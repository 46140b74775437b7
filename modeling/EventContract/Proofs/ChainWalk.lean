import EventContract.Proofs.CheckedSchema
import EventContract.Proofs.TableLaws
import EventContract.Schema.Shelf
import Mathlib.Data.List.Nodup
import Mathlib.Data.List.Perm.Subperm

/-! # Walks over a shelf

A walk follows references from one document to its last ancestor. What it comes to is told here
without the walk itself: by the trail of documents that it leaves, and by what is the matter with
the last one of them. A trail never holds an origin twice, so it is no longer than the shelf.
-/

namespace EventContract

/-- Folding a chain does not report a cycle. -/
theorem Schema.ofChain_ne_cycle (documents : List Document)
    (chain : List String) : Schema.ofChain documents ≠ .error (.cycle chain) := by
  intro h
  rcases bind_eq_error_iff.mp h with hfold | ⟨schema, -, h⟩
  · unfold Schema.fold at hfold
    split at hfold
    · cases hfold
    · cases hfold
  · rcases bind_eq_error_iff.mp h with hcheck | ⟨-, -, h⟩
    · exact schema.check_ne_cycle chain hcheck
    · cases h

namespace Shelf

variable {shelf : Shelf} {leaf child parent last : Document} {below : List Document}

/-! ## One reference -/

/-- The document that the shelf keeps under the name which `child` extends. -/
def parent? (shelf : Shelf) (child : Document) : Option Document :=
  child.parent.bind shelf.documents.get?

theorem origin_of_get? {name : String} {document : Document}
    (h : shelf.documents.get? name = some document) : document.origin = .named name :=
  shelf.named _ (Table.mem_of_get? h)

theorem parent?_eq_some_iff : shelf.parent? child = some parent ↔
    ∃ reference, child.parent = some reference ∧
      shelf.documents.get? reference = some parent :=
  Option.bind_eq_some_iff

theorem origin_of_parent? (h : shelf.parent? child = some parent) :
    ∃ reference ∈ shelf.documents.keys, parent.origin = .named reference := by
  obtain ⟨reference, -, hkept⟩ := parent?_eq_some_iff.mp h
  exact ⟨reference, Table.mem_keys_of_get? hkept, origin_of_get? hkept⟩

theorem locate_of_get? {reference : String} {document : Document}
    (h : shelf.documents.get? reference = some document) (referrer : Origin) :
    shelf.locate reference referrer = .ok document.origin := by
  rw [locate, h, origin_of_get? h]

theorem load_of_get? {reference : String} {document : Document}
    (h : shelf.documents.get? reference = some document) :
    shelf.load document.origin = .ok document := by
  simp only [load, origin_of_get? h, h]

@[simp] theorem catalog_locate (reference : String) (referrer : Origin) :
    shelf.catalog.locate reference referrer = shelf.locate reference referrer := rfl

@[simp] theorem catalog_load (origin : Origin) : shelf.catalog.load origin = shelf.load origin :=
  rfl

@[simp] theorem catalog_identity (origin : Origin) : shelf.catalog.identity origin = origin := rfl

/-! ## Trails -/

/-- References lead from `leaf` to `last` over the documents `below` it, of which the nearest to
`last` comes first. Those below pass their checks, and no origin comes up twice. -/
inductive Trail (shelf : Shelf) (leaf : Document) : List Document → Document → Prop
  | leaf : Trail shelf leaf [] leaf
  | parent {below : List Document} {child parent : Document}
      (trail : Trail shelf leaf below child) (hcheck : child.check = .ok ())
      (hparent : shelf.parent? child = some parent)
      (hnew : parent.origin ∉ (child :: below).map Document.origin) :
      Trail shelf leaf (child :: below) parent

namespace Trail

theorem nodup (trail : Trail shelf leaf below last) :
    ((last :: below).map Document.origin).Nodup := by
  induction trail with
  | leaf => simp
  | parent trail hcheck hparent hnew ih => exact List.nodup_cons.mpr ⟨hnew, ih⟩

theorem checked (trail : Trail shelf leaf below last) :
    ∀ document ∈ below, document.check = .ok () := by
  induction trail with
  | leaf => simp
  | parent trail hcheck hparent hnew ih => exact List.forall_mem_cons.mpr ⟨hcheck, ih⟩

/-- All documents of a trail but its leaf are kept under their origins. -/
theorem exists_kept (trail : Trail shelf leaf below last) :
    ∃ parents, last :: below = parents ++ [leaf] ∧
      ∀ parent ∈ parents, ∃ name ∈ shelf.documents.keys, parent.origin = .named name := by
  induction trail with
  | leaf => exact ⟨[], rfl, by simp⟩
  | @parent below child parent trail hcheck hparent hnew ih =>
      obtain ⟨parents, heq, hkept⟩ := ih
      refine ⟨parent :: parents, by rw [heq, List.cons_append], ?_⟩
      exact List.forall_mem_cons.mpr ⟨origin_of_parent? hparent, hkept⟩

/-- Distinct origins of documents on the shelf: a trail has at most one more document than the
shelf. -/
theorem length_le (trail : Trail shelf leaf below last) :
    below.length ≤ shelf.documents.length := by
  obtain ⟨parents, heq, hkept⟩ := trail.exists_kept
  have hlength : below.length = parents.length := by
    simpa using congrArg List.length heq
  have hnodup : (parents.map Document.origin).Nodup := by
    have hall := trail.nodup
    rw [heq, List.map_append] at hall
    exact (List.nodup_append.mp hall).1
  have hsubset : parents.map Document.origin ⊆ shelf.documents.keys.map Origin.named := by
    intro origin horigin
    obtain ⟨parent, hmem, rfl⟩ := List.mem_map.mp horigin
    obtain ⟨name, hname, heq⟩ := hkept parent hmem
    exact List.mem_map.mpr ⟨name, hname, heq.symm⟩
  have hle := (hnodup.subperm hsubset).length_le
  simpa [hlength, Table.keys] using hle

end Trail

/-! ## How a walk ends -/

/-- What comes of a document on a shelf: the documents visited, `leaf` first, and the result. The
trail of documents that pass their checks goes on as far as there are references, and its last
document decides. -/
inductive Outcome (shelf : Shelf) (leaf : Document) :
    List Document → Except Problem Schema → Prop
  /-- A document fails its own check. -/
  | refused {below : List Document} {last : Document} {problem : Problem}
      (trail : Trail shelf leaf below last) (hcheck : last.check = .error problem) :
      Outcome shelf leaf (last :: below).reverse (.error problem)
  /-- A reference names nothing on the shelf. -/
  | missing {below : List Document} {last : Document} {reference : String}
      (trail : Trail shelf leaf below last) (hcheck : last.check = .ok ())
      (hreference : last.parent = some reference)
      (hnone : shelf.documents.get? reference = none) :
      Outcome shelf leaf (last :: below).reverse
        (.error (.missingParent reference last.origin.display))
  /-- A reference leads back to an origin of the trail. -/
  | revisited {below : List Document} {last parent : Document}
      (trail : Trail shelf leaf below last) (hcheck : last.check = .ok ())
      (hparent : shelf.parent? last = some parent)
      (hseen : parent.origin ∈ (last :: below).map Document.origin) :
      Outcome shelf leaf (last :: below).reverse
        (.error (.cycle (((last :: below).reverse ++ [parent]).map fun d => d.origin.display)))
  /-- A document without a reference is reached. -/
  | rooted {below : List Document} {last : Document}
      (trail : Trail shelf leaf below last) (hcheck : last.check = .ok ())
      (hroot : last.parent = none) :
      Outcome shelf leaf (last :: below).reverse (Schema.ofChain (last :: below).reverse)

/-- Every trail leads on to an outcome, for it cannot grow forever. -/
theorem Trail.exists_outcome (trail : Trail shelf leaf below last) :
    ∃ visited result, shelf.Outcome leaf visited result := by
  -- The measure is how many documents the trail may still take in.
  induction hroom : shelf.documents.length - below.length using Nat.strongRecOn
    generalizing below last with
  | ind room ih =>
      cases hcheck : last.check with
      | error problem => exact ⟨_, _, .refused trail hcheck⟩
      | ok done =>
          cases hreference : last.parent with
          | none => exact ⟨_, _, .rooted trail hcheck hreference⟩
          | some reference =>
              cases hkept : shelf.documents.get? reference with
              | none => exact ⟨_, _, .missing trail hcheck hreference hkept⟩
              | some parent =>
                  have hparent : shelf.parent? last = some parent :=
                    parent?_eq_some_iff.mpr ⟨reference, hreference, hkept⟩
                  by_cases hseen : parent.origin ∈ (last :: below).map Document.origin
                  · exact ⟨_, _, .revisited trail hcheck hparent hseen⟩
                  · have longer := Trail.parent trail hcheck hparent hseen
                    have hle := longer.length_le
                    rw [List.length_cons] at hle
                    exact ih _ (by rw [List.length_cons]; omega) longer rfl

/-! ## The walk itself -/

/-- Going on from a document that passes its check to a parent of a new origin. -/
theorem walk_succ (fuel : Nat) (hcheck : child.check = .ok ())
    (hparent : shelf.parent? child = some parent)
    (hnew : parent.origin ∉ (child :: below).map Document.origin) :
    Schema.walk shelf.catalog (fuel + 1) ((child :: below).map Document.origin) child =
      .onward child
        (Schema.walk shelf.catalog fuel ((parent :: child :: below).map Document.origin) parent) := by
  obtain ⟨reference, hreference, hkept⟩ := parent?_eq_some_iff.mp hparent
  rw [Schema.walk]
  simp only [hcheck, hreference, catalog_locate, locate_of_get? hkept, catalog_identity,
    catalog_load, load_of_get? hkept, if_neg hnew]
  rfl

/-- Whatever fuel is left at the last document of a trail, the walk has come over the trail. -/
theorem Trail.walkFrom_eq (trail : Trail shelf leaf below last) (fuel : Nat)
    (hfuel : fuel + below.length = shelf.documents.length) :
    Schema.walkFrom shelf.catalog leaf = below.foldl (fun walk document => walk.onward document)
      (Schema.walk shelf.catalog fuel ((last :: below).map Document.origin) last) := by
  induction trail generalizing fuel with
  | leaf =>
      rw [List.length_nil, Nat.add_zero] at hfuel
      rw [hfuel]
      rfl
  | parent trail hcheck hparent hnew ih =>
      rw [List.length_cons] at hfuel
      rw [ih (fuel + 1) (by omega), walk_succ fuel hcheck hparent hnew]
      rfl

theorem foldl_onward (documents : List Document) (walk : Walk) :
    documents.foldl (fun walk document => walk.onward document) walk =
      ⟨documents.reverse ++ walk.visited, walk.outcome⟩ := by
  induction documents generalizing walk with
  | nil => rfl
  | cons document rest ih =>
      rw [List.foldl_cons, ih, List.reverse_cons, List.append_assoc]
      rfl

/-- Where the walk ends at the last document of a trail, it has visited the trail. -/
theorem Trail.walkFrom_ended (trail : Trail shelf leaf below last) {outcome : Except Problem Unit}
    (hended : ∀ fuel, Schema.walk shelf.catalog fuel ((last :: below).map Document.origin) last =
      .ended last outcome) :
    Schema.walkFrom shelf.catalog leaf = ⟨(last :: below).reverse, outcome⟩ := by
  have hle := trail.length_le
  rw [trail.walkFrom_eq (shelf.documents.length - below.length) (by omega), hended, foldl_onward,
    List.reverse_cons]
  rfl

theorem walk_refused {problem : Problem} (hcheck : last.check = .error problem) (fuel : Nat)
    (seen : List Origin) :
    Schema.walk shelf.catalog fuel seen last = .ended last (.error problem) := by
  rw [Schema.walk, hcheck]

theorem walk_missing {reference : String} (hcheck : last.check = .ok ())
    (hreference : last.parent = some reference) (hnone : shelf.documents.get? reference = none)
    (fuel : Nat) (seen : List Origin) :
    Schema.walk shelf.catalog fuel seen last =
      .ended last (.error (.missingParent reference last.origin.display)) := by
  have hlocate : shelf.locate reference last.origin =
      .error (.missingParent reference last.origin.display) := by rw [locate, hnone]
  rw [Schema.walk]
  simp only [hcheck, hreference, catalog_locate, hlocate]

theorem walk_revisited (hcheck : last.check = .ok ()) (hparent : shelf.parent? last = some parent)
    (fuel : Nat) {seen : List Origin} (hseen : parent.origin ∈ seen) :
    Schema.walk shelf.catalog fuel seen last =
      .ended last (.error (Schema.revisited seen parent.origin)) := by
  obtain ⟨reference, hreference, hkept⟩ := parent?_eq_some_iff.mp hparent
  rw [Schema.walk]
  simp only [hcheck, hreference, catalog_locate, locate_of_get? hkept]
  exact if_pos hseen

theorem walk_rooted (hcheck : last.check = .ok ()) (hroot : last.parent = none) (fuel : Nat)
    (seen : List Origin) : Schema.walk shelf.catalog fuel seen last = .ended last (.ok ()) := by
  rw [Schema.walk]
  simp only [hcheck, hroot]

/-- Each outcome is what the walk comes to. -/
theorem Outcome.eq {visited : List Document} {result : Except Problem Schema}
    (outcome : shelf.Outcome leaf visited result) :
    (Schema.walkFrom shelf.catalog leaf).visited = visited ∧
      Schema.ofDocument shelf.catalog leaf = result := by
  cases outcome with
  | refused trail hcheck =>
      have hwalk := trail.walkFrom_ended fun fuel => walk_refused hcheck fuel _
      exact ⟨by rw [hwalk], by rw [Schema.ofDocument, hwalk]; rfl⟩
  | missing trail hcheck hreference hnone =>
      have hwalk := trail.walkFrom_ended fun fuel => walk_missing hcheck hreference hnone fuel _
      exact ⟨by rw [hwalk], by rw [Schema.ofDocument, hwalk]; rfl⟩
  | revisited trail hcheck hparent hseen =>
      have hwalk := trail.walkFrom_ended fun fuel => walk_revisited hcheck hparent fuel hseen
      refine ⟨by rw [hwalk], ?_⟩
      rw [Schema.ofDocument, hwalk]
      simp [Schema.revisited, bind, Except.bind]
  | rooted trail hcheck hroot =>
      have hwalk := trail.walkFrom_ended fun fuel => walk_rooted hcheck hroot fuel _
      exact ⟨by rw [hwalk], by rw [Schema.ofDocument, hwalk]; rfl⟩

/-- The outcomes are exactly what the walk and the resolution give. -/
theorem outcome_iff {visited : List Document} {result : Except Problem Schema} :
    shelf.Outcome leaf visited result ↔
      (Schema.walkFrom shelf.catalog leaf).visited = visited ∧
        Schema.ofDocument shelf.catalog leaf = result := by
  refine ⟨Outcome.eq, ?_⟩
  rintro ⟨rfl, rfl⟩
  obtain ⟨visited, result, outcome⟩ := (Trail.leaf : Trail shelf leaf [] leaf).exists_outcome
  obtain ⟨hvisited, hresult⟩ := outcome.eq
  rwa [hvisited, hresult]

/-- What was visited is a trail. -/
theorem Outcome.exists_trail {visited : List Document} {result : Except Problem Schema}
    (outcome : shelf.Outcome leaf visited result) :
    ∃ below last, Trail shelf leaf below last ∧ visited = (last :: below).reverse := by
  cases outcome with
  | refused trail => exact ⟨_, _, trail, rfl⟩
  | missing trail => exact ⟨_, _, trail, rfl⟩
  | revisited trail => exact ⟨_, _, trail, rfl⟩
  | rooted trail => exact ⟨_, _, trail, rfl⟩

/-! ## Coming back to an origin -/

/-- The document that so many references lead to, whether or not the documents between pass their
checks. -/
def ancestor? (shelf : Shelf) (leaf : Document) : Nat → Option Document
  | 0 => some leaf
  | steps + 1 => (shelf.ancestor? leaf steps).bind shelf.parent?

/-- Following references from `leaf` leads to two documents of one origin. -/
def Revisits (shelf : Shelf) (leaf : Document) : Prop :=
  ∃ i j first again, i < j ∧ shelf.ancestor? leaf i = some first ∧
    shelf.ancestor? leaf j = some again ∧ again.origin = first.origin

theorem Trail.ancestor?_eq (trail : Trail shelf leaf below last) {steps : Nat}
    (hsteps : steps ≤ below.length) :
    shelf.ancestor? leaf steps = (last :: below).reverse[steps]? := by
  induction trail generalizing steps with
  | leaf =>
      obtain rfl : steps = 0 := by simpa using hsteps
      rfl
  | @parent below child parent trail hcheck hparent hnew ih =>
      rw [List.reverse_cons]
      rcases Nat.lt_or_eq_of_le hsteps with hlt | rfl
      · rw [List.length_cons] at hlt
        rw [ih (by omega), List.getElem?_append_left (by simpa using hlt)]
      · have hchild : shelf.ancestor? leaf below.length = some child := by
          rw [ih (Nat.le_refl _), List.reverse_cons]
          simp
        rw [List.length_cons, ancestor?, hchild]
        simpa using hparent

/-- References from the last ancestor lead nowhere. -/
theorem ancestor?_eq_none {steps : Nat} (hlast : shelf.ancestor? leaf steps = some last)
    (hroot : last.parent = none) {further : Nat} (hlt : steps < further) :
    shelf.ancestor? leaf further = none := by
  induction further with
  | zero => omega
  | succ further ih =>
      rcases Nat.lt_or_eq_of_le (Nat.le_of_lt_succ hlt) with hlt | rfl
      · rw [ancestor?, ih hlt, Option.bind_none]
      · rw [ancestor?, hlast, Option.bind_some, parent?, hroot, Option.bind_none]

/-- A trail that ends at a last ancestor holds all ancestors, so none comes up twice. -/
theorem Trail.not_revisits (trail : Trail shelf leaf below last) (hroot : last.parent = none) :
    ¬ shelf.Revisits leaf := by
  rintro ⟨i, j, first, again, hlt, hfirst, hagain, heq⟩
  have hlast : shelf.ancestor? leaf below.length = some last := by
    rw [trail.ancestor?_eq (Nat.le_refl _)]
    simp
  have hj : j ≤ below.length := by
    by_contra hgt
    rw [ancestor?_eq_none hlast hroot (by omega)] at hagain
    cases hagain
  rw [trail.ancestor?_eq (by omega)] at hfirst
  rw [trail.ancestor?_eq hj] at hagain
  have hnodup : ((last :: below).reverse.map Document.origin).Nodup := by
    rw [List.map_reverse, List.nodup_reverse]
    exact trail.nodup
  have hlength : i < ((last :: below).reverse.map Document.origin).length := by
    simp
    omega
  have hindex : i = j := (List.getElem?_inj hlength hnodup).mp (by
    rw [List.getElem?_map, List.getElem?_map, hfirst, hagain, Option.map_some, Option.map_some,
      heq])
  omega

/-- The documents of a trail and the one that a reference of its last document leads back to, by
their origins: distinct ones, and one of them again. -/
theorem Trail.revisited_origins (trail : Trail shelf leaf below last)
    (hparent : shelf.parent? last = some parent) :
    ∀ steps ≤ below.length + 1, (shelf.ancestor? leaf steps).map Document.origin =
      ((last :: below).reverse.map Document.origin ++ [parent.origin])[steps]? := by
  intro steps hsteps
  rcases Nat.lt_or_eq_of_le hsteps with hlt | rfl
  · rw [trail.ancestor?_eq (by omega), List.getElem?_append_left (by simpa using hlt),
      List.getElem?_map]
  · have hlast : shelf.ancestor? leaf below.length = some last := by
      rw [trail.ancestor?_eq (Nat.le_refl _)]
      simp
    rw [ancestor?, hlast, Option.bind_some, hparent]
    simp

/-- Following references from any document over any shelf comes to an end, after loading at most as
many parents as the shelf has documents. The result is told by the first thing that happens on the
way: a failed check, a reference to nothing, an origin that comes up again, or a document without a
reference. A cycle is reported with distinct origins from the leaf on and the one that comes up
again, and only a chain without such an origin is accepted. -/
theorem resolution_classified (shelf : Shelf) (leaf : Document) :
    (Schema.walkFrom shelf.catalog leaf).visited.tail.length ≤ shelf.documents.length ∧
      (∀ visited result, shelf.Outcome leaf visited result ↔
        (Schema.walkFrom shelf.catalog leaf).visited = visited ∧
          Schema.ofDocument shelf.catalog leaf = result) ∧
      (∀ chain, Schema.ofDocument shelf.catalog leaf = .error (.cycle chain) →
        ∃ origins again, origins.head? = some leaf.origin ∧ origins.Nodup ∧ again ∈ origins ∧
          chain = (origins ++ [again]).map Origin.display ∧
          ∀ steps ≤ origins.length, (shelf.ancestor? leaf steps).map Document.origin =
            (origins ++ [again])[steps]?) ∧
      (shelf.Revisits leaf → ∃ problem,
        Schema.ofDocument shelf.catalog leaf = .error problem) := by
  obtain ⟨visited, result, outcome⟩ := (Trail.leaf : Trail shelf leaf [] leaf).exists_outcome
  obtain ⟨hvisited, hresult⟩ := outcome.eq
  refine ⟨?_, fun _ _ => outcome_iff, ?_, ?_⟩
  · obtain ⟨below, last, trail, heq⟩ := outcome.exists_trail
    rw [hvisited, heq]
    simpa using trail.length_le
  · intro chain hcycle
    rw [hresult] at hcycle
    cases outcome with
    | refused trail hcheck =>
        cases hcycle
        exact absurd hcheck (Document.check_ne_cycle _ chain)
    | missing => cases hcycle
    | @revisited below last parent trail hcheck hparent hseen =>
        cases hcycle
        refine ⟨(last :: below).reverse.map Document.origin, parent.origin, ?_, ?_, ?_, ?_, ?_⟩
        · obtain ⟨parents, heq, -⟩ := trail.exists_kept
          simp [heq]
        · rw [List.map_reverse, List.nodup_reverse]
          exact trail.nodup
        · rwa [List.map_reverse, List.mem_reverse]
        · simp
        · simpa using trail.revisited_origins hparent
    | rooted => exact absurd hcycle (Schema.ofChain_ne_cycle _ chain)
  · intro hrevisits
    rw [hresult]
    cases outcome with
    | refused => exact ⟨_, rfl⟩
    | missing => exact ⟨_, rfl⟩
    | revisited => exact ⟨_, rfl⟩
    | rooted trail hcheck hroot => exact absurd hrevisits (trail.not_revisits hroot)

end Shelf

end EventContract
