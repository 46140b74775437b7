import EventContract.Schema.Chain
/-!
# Documents kept by name

A shelf holds documents in memory, each under a name of its own, which is its origin too. A
reference is the name itself, wherever it stands, and a document is identified by the name it is
kept under.
-/

namespace EventContract

/-- Documents by name. -/
structure Shelf where
  documents : Table Document
  distinct : documents.keys.Nodup
  named : ∀ entry ∈ documents, entry.2.origin = .named entry.1

namespace Shelf

/-- Without documents. -/
def empty : Shelf where
  documents := []
  distinct := List.nodup_nil
  named := by simp

/-- Keeps a document under a name, which becomes its origin; an earlier one of that name goes. -/
def insert (shelf : Shelf) (name : String) (document : Document) : Shelf where
  documents := shelf.documents.put name { document with origin := .named name }
  distinct := Table.nodup_keys_put shelf.distinct name _
  named entry hentry := by
    rcases Table.mem_put hentry with rfl | hentry
    · rfl
    · exact shelf.named entry hentry

/-- The origin that a reference names. -/
def locate (shelf : Shelf) (reference : String) (referrer : Origin) : Except Problem Origin :=
  match shelf.documents.get? reference with
  | some _ => .ok (.named reference)
  | none => .error (.missingParent reference referrer.display)

/-- The document of an origin. -/
def load (shelf : Shelf) (origin : Origin) : Except Problem Document :=
  let found := match origin with
    | .named name => shelf.documents.get? name
    | _ => none
  match found with
  | some document => .ok document
  | none => .error (.missingParent origin.display "memory store")

/-- The shelf as a place to find parents in. -/
def catalog (shelf : Shelf) : Catalog where
  locate := shelf.locate
  load := shelf.load
  identity := id
  size := shelf.documents.length

end Shelf

end EventContract
