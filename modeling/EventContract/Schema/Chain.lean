import EventContract.Schema.WellFormed
import EventContract.Table
/-!
# Folding a chain of documents

A document extends another one by naming it, and that one may extend a third. `walkFrom` follows
the references from a document to its last ancestor and `fold` goes the other way: an event of a
name that is already there takes that event's place as a whole, every other one is appended, and
the endpoint is that of the nearest document which has one.

A `Catalog` is where parents are found. It knows how many documents it can lead to, which bounds
the walk: a chain that is longer has come back to a document it already holds.
-/

namespace EventContract

/-- Where parents are found. -/
structure Catalog where
  /-- The origin that a reference names, seen from the document that holds the reference. -/
  locate : String → Origin → Except Problem Origin
  /-- The document at an origin. -/
  load : Origin → Except Problem Document
  /-- What stays the same when one document is reached in different ways. -/
  identity : Origin → Origin
  /-- How many different documents there are at most. -/
  size : Nat

/-- How following references went. -/
structure Walk where
  /-- The documents visited, the first of which was at hand and the others were loaded. -/
  visited : List Document
  /-- Whether the last one is the last ancestor, or else why the walk ended there. -/
  outcome : Except Problem Unit

namespace Walk

/-- A walk that ends where it begins. -/
def ended (document : Document) (outcome : Except Problem Unit) : Walk :=
  ⟨[document], outcome⟩

/-- A walk with one more document in front. -/
def onward (document : Document) (walk : Walk) : Walk :=
  { walk with visited := document :: walk.visited }

end Walk

namespace Schema

/-- The problem of coming back to one of the documents walked, the last of which is first in
`seen`. -/
def revisited (seen : List Origin) (identity : Origin) : Problem :=
  .cycle ((identity :: seen).reverse.map Origin.display)

/-- Checks a document and goes on to the one it extends. `seen` holds the identities of all
documents walked, that of this one first. -/
def walk (catalog : Catalog) : Nat → List Origin → Document → Walk
  | fuel, seen, document =>
    match document.check with
    | .error problem => .ended document (.error problem)
    | .ok () =>
      match document.parent with
      | none => .ended document (.ok ())
      | some reference =>
        match catalog.locate reference document.origin with
        | .error problem => .ended document (.error problem)
        | .ok origin =>
          let identity := catalog.identity origin
          if identity ∈ seen then .ended document (.error (revisited seen identity))
          else match catalog.load origin, fuel with
            | .error problem, _ => .ended document (.error problem)
            | .ok _, 0 => .ended document (.error (revisited seen identity))
            | .ok parent, fuel + 1 => .onward document (walk catalog fuel (identity :: seen) parent)

/-- The walk from a document to its last ancestor. -/
def walkFrom (catalog : Catalog) (document : Document) : Walk :=
  walk catalog catalog.size [catalog.identity document.origin] document

/-- The endpoint of the nearest document that has one. -/
def nearestEndpoint (chain : List Document) : Option String :=
  chain.findSome? fun document => document.endpoint.filter fun endpoint => !endpoint.isEmpty

/-- The events of a document. -/
def eventsOf (document : Document) : List Event :=
  document.events.getD []

/-- The events of all documents of a chain, from the last ancestor on. -/
def declaredEvents (chain : List Document) : List Event :=
  chain.reverse.flatMap eventsOf

/-- Events in the order in which their names come up first. A later event of a name takes the place
of the earlier one. -/
def merged (events : List Event) : List Event :=
  (Table.ofPairs (events.map fun event => (event.name, event))).values

/-- What a chain comes to. -/
def fold (chain : List Document) : Except Problem Schema :=
  match nearestEndpoint chain with
  | some endpoint => .ok ⟨endpoint, merged (declaredEvents chain)⟩
  | none => .error (.missingEndpoint ((chain.head?.map fun d => d.origin.display).getD ""))

/-- The schema of a whole chain, checked. -/
def ofChain (chain : List Document) : Except Problem Schema := do
  let schema ← fold chain
  schema.check
  return schema

/-- The schema of a document and all its ancestors. -/
def ofDocument (catalog : Catalog) (document : Document) : Except Problem Schema := do
  let walk := walkFrom catalog document
  walk.outcome
  ofChain walk.visited

end Schema

end EventContract
