import EventContract.Disk.FileError
import EventContract.Disk.Path
import EventContract.Text.Utf8
/-!
# A disk as a value

A disk maps places to files and directories, where a place is the list of names that lead to it from
the root. Paths are looked up component by component, relative ones from the working directory; each
operation gives its result, or the cause for which the system would refuse it. There are no links,
so every place has one name.
-/

namespace EventContract

/-- What stands at a place of a disk. -/
inductive Disk.Entry where
  | file (content : ByteArray)
  | directory

/-- A disk and the place of the working directory. The root is a directory without an entry. -/
structure Disk where
  workingDirectory : List String
  entries : List (List String × Disk.Entry)

namespace Disk

/-- One component of a path. -/
inductive Step where
  /-- Nothing between two slashes, or before or behind one. -/
  | slash
  /-- A single dot. -/
  | stay
  | up
  | down (name : String)
  deriving DecidableEq, Repr

def Step.ofPart (part : List Char) : Step :=
  if part.isEmpty then .slash
  else if part = ['.'] then .stay
  else if part = ['.', '.'] then .up
  else .down (String.ofList part)

def steps (path : String) : List Step :=
  (Path.parts path.toList).map Step.ofPart

def nameLimit : Nat := 255

def pathLimit : Nat := 4095

def entry? (disk : Disk) : List String → Option Entry
  | [] => some .directory
  | place => (disk.entries.find? fun entry => entry.1 == place).map Prod.snd

def hasDirectory (disk : Disk) (place : List String) : Bool :=
  match disk.entry? place with
  | some .directory => true
  | _ => false

/-- With an entry at a place, instead of what stood there. -/
def put (disk : Disk) (place : List String) (entry : Entry) : Disk :=
  { disk with
    entries := (disk.entries.filter fun other => other.1 != place) ++ [(place, entry)] }

/-- The place that steps lead to from a place. Every step needs a directory to be taken in. -/
def walk (disk : Disk) (place : List String) : List Step → Except FileError (List String)
  | [] => .ok place
  | step :: rest =>
    if !disk.hasDirectory place then .error .notDirectory
    else match step with
      | .slash | .stay => disk.walk place rest
      | .up => disk.walk place.dropLast rest
      | .down name =>
        if nameLimit < name.utf8ByteSize then .error .nameTooLong
        else if (disk.entry? (place ++ [name])).isNone then .error .notFound
        else disk.walk (place ++ [name]) rest

/-- Refuses texts that are no paths at all. -/
def checkPath (path : String) : Except FileError Unit :=
  if path.isEmpty then .error .notFound
  else if path.toList.contains '\x00' then .error .nulInName
  else if pathLimit < path.utf8ByteSize then .error .nameTooLong
  else .ok ()

/-- Where the steps of a path begin. -/
def origin (disk : Disk) (path : String) : List String :=
  if Path.isAbsolute path then [] else disk.workingDirectory

/-- The place that a path leads to. -/
def resolve (disk : Disk) (path : String) : Except FileError (List String) := do
  checkPath path
  disk.walk (disk.origin path) (steps path)

def read (disk : Disk) (path : String) : Except FileError ByteArray := do
  let place ← disk.resolve path
  match disk.entry? place with
  | some (.file content) => .ok content
  | some .directory => .error .isDirectory
  | none => .error .notFound

def isFile (disk : Disk) (path : String) : Bool :=
  (disk.read path).toBool

def isDirectory (disk : Disk) (path : String) : Bool :=
  match disk.resolve path with
  | .ok place => disk.hasDirectory place
  | .error _ => false

def placePath (place : List String) : String :=
  "/" ++ "/".intercalate place

/-- The one absolute path of what a path leads to, if it leads anywhere. The path is followed name
by name, so that only its names have to be short enough. -/
def canonical? (disk : Disk) (path : String) : Option String :=
  if path.isEmpty || path.toList.contains '\x00' then none
  else (disk.walk (disk.origin path) (steps path)).toOption.map placePath

/-- The last step that is not a slash, with the steps before it, and whether slashes follow it. -/
def lastStep? (path : String) : Option (List Step × Step × Bool) :=
  let reversed := (steps path).reverse
  match reversed.dropWhile (· == .slash) with
  | [] => none
  | last :: before => some (before.reverse, last, reversed.head? == some .slash)

/-- Makes a directory in one that is there. -/
def makeDirectory (disk : Disk) (path : String) : Except FileError Disk := do
  checkPath path
  match lastStep? path with
  | none => .error .alreadyExists
  | some (before, last, _) =>
    let place ← disk.walk (disk.origin path) before
    if !disk.hasDirectory place then .error .notDirectory
    else match last with
      | .down name =>
        if nameLimit < name.utf8ByteSize then .error .nameTooLong
        else if (disk.entry? (place ++ [name])).isSome then .error .alreadyExists
        else .ok (disk.put (place ++ [name]) .directory)
      | _ => .error .alreadyExists

/-- Makes a directory; one that is there already is as good. -/
def ensureDirectory (disk : Disk) (path : String) : Except FileError Disk :=
  match disk.makeDirectory path with
  | .ok disk => .ok disk
  | .error cause => if disk.isDirectory path then .ok disk else .error cause

/-- Makes a directory and those that are missing above it, and gives the disk as it is then, with
the cause if that was refused. The empty path is the working directory. -/
def makeDirectories : Nat → Disk → String → Except FileError Unit × Disk
  | 0, disk, _ => (.error .notFound, disk)
  | fuel + 1, disk, path =>
    if path.isEmpty then (.ok (), disk)
    else match disk.ensureDirectory path with
      | .ok disk => (.ok (), disk)
      | .error .notFound =>
        match Path.parent? path with
        | none => (.error .notFound, disk)
        | some above =>
          match makeDirectories fuel disk above with
          | (.error cause, disk) => (.error cause, disk)
          | (.ok (), disk) =>
            match disk.ensureDirectory path with
            | .ok disk => (.ok (), disk)
            | .error cause => (.error cause, disk)
      | .error cause => (.error cause, disk)

/-- Makes a directory and those that are missing above it. -/
def createDirectories (disk : Disk) (path : String) : Except FileError Unit × Disk :=
  makeDirectories (path.length + 1) disk path

/-- Writes a file into a directory that is there. -/
def write (disk : Disk) (path : String) (content : ByteArray) : Except FileError Disk := do
  checkPath path
  match lastStep? path with
  | none => .error .isDirectory
  | some (before, last, slashed) =>
    let place ← disk.walk (disk.origin path) before
    if !disk.hasDirectory place then .error .notDirectory
    else match last with
      | .down name =>
        if slashed then .error .isDirectory
        else if nameLimit < name.utf8ByteSize then .error .nameTooLong
        else match disk.entry? (place ++ [name]) with
          | some .directory => .error .isDirectory
          | _ => .ok (disk.put (place ++ [name]) (.file content))
      | _ => .error .isDirectory

end Disk

end EventContract
