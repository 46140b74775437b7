import EventContract.Disk.Basic
import EventContract.Schema.Chain
import EventContract.Schema.Source
/-!
# Documents on a disk

A reference in a file is a path relative to the directory of that file; in a document from elsewhere
it is relative to a base directory. Documents are told apart by the places of their files.
-/

namespace EventContract.Disk

def loadDocument (disk : Disk) (path : String) : Except Problem Document :=
  match disk.read path with
  | .ok content => Document.ofBytes content path
  | .error cause => .error (.unreadable path cause)

def locate (disk : Disk) (base : String) (reference : String) (referrer : Origin) :
    Except Problem Origin :=
  let directory := match referrer with
    | .file path => (Path.parent? path).getD ""
    | _ => base
  let path := Path.join directory reference
  if disk.isFile path then .ok (.file path)
  else .error (.missingParent reference referrer.display)

def load (disk : Disk) : Origin → Except Problem Document
  | .file path => disk.loadDocument path
  | origin => .error (.missingParent origin.display "filesystem store")

/-- A file's place as its path, if the path leads anywhere. -/
def identity (disk : Disk) : Origin → Origin
  | .file path => .file ((disk.canonical? path).getD path)
  | origin => origin

/-- The disk as a place to find parents in. -/
def catalog (disk : Disk) (base : String) : Catalog where
  locate := disk.locate base
  load := disk.load
  identity := disk.identity
  size := disk.entries.length

end EventContract.Disk
