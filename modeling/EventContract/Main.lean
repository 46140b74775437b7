import EventContract.Command.Run
/-!
# The command line

Looks at the part of the file system that a command line may touch, runs the command on it as a
value, and carries out what has changed.
-/

open EventContract

namespace EventContract.Program

/-- The disk with what really stands at a place. -/
def look (disk : Disk) (place : List String) : IO Disk := do
  if (disk.entry? place).isSome then return disk
  let path := (← IO.currentDir) / Disk.placePath place
  if ← path.isDir then return disk.put place .directory
  if ← path.pathExists then
    return disk.put place (.file (← IO.FS.readBinFile path))
  return disk

/-- The disk with what really stands on the way that a path takes. -/
def lookAlong (disk : Disk) (path : String) : IO Disk := do
  let mut disk := disk
  let mut place := disk.origin path
  for step in Disk.steps path do
    match step with
    | .slash => pure ()
    | .stay => pure ()
    | .up => place := place.dropLast
    | .down name =>
      place := place ++ [name]
      disk ← look disk place
  return disk

/-- The disk with the file at a path and all the files that it extends, `n` of them at most. -/
def lookAtChain (disk : Disk) (path : String) : Nat → IO Disk
  | 0 => return disk
  | n + 1 => do
    let disk ← lookAlong disk path
    match disk.loadDocument path with
    | .error _ => return disk
    | .ok document =>
      match document.parent with
      | none => return disk
      | some reference =>
        lookAtChain disk (Disk.Path.join ((Disk.Path.parent? path).getD "") reference) n

/-- Most files of a chain that are looked at. -/
def chainLimit : Nat := 1000

/-- The disk with the files that a command line is about. -/
def lookAround (disk : Disk) (surroundings : Config.Surroundings) (words : List String) :
    IO Disk := do
  match Command.request words with
  | .run config action =>
    match action with
    | .check schema => lookAtChain disk schema chainLimit
    | .resolve schema => lookAtChain disk schema chainLimit
    | .generate schema flags =>
      let mut disk := disk
      for path in [Config.userPath? surroundings, some (Config.projectPath "."), config] do
        if let some path := path then disk ← lookAlong disk path
      disk ← lookAtChain disk schema chainLimit
      match Config.load disk surroundings "." config with
      | .error _ => return disk
      | .ok config =>
        let config := Command.effective flags config
        for name in [config.emissionOptions.outputName, config.consumptionOptions.outputName] do
          disk ← lookAlong disk (Disk.Path.join config.directory name)
        return disk
  | _ => return disk

/-- Makes the entries real that are new or have changed. -/
def carryOut (before after : Disk) : IO Unit := do
  for (place, entry) in after.entries do
    let path := Disk.placePath place
    match entry, before.entry? place with
    | .directory, some .directory => pure ()
    | .directory, _ => IO.FS.createDirAll path
    | .file content, some (.file old) => if old != content then IO.FS.writeBinFile path content
    | .file content, _ => IO.FS.writeBinFile path content

/-- The disk with nothing but the working directory and the directories above it. -/
def workingDisk : IO Disk := do
  let names := ((← IO.currentDir).toString.splitOn "/").filter fun name => !name.isEmpty
  let above := (List.range names.length).map fun n => (names.take (n + 1), Disk.Entry.directory)
  return ⟨names, above⟩

end EventContract.Program

/-- Runs the command line and gives its exit code. -/
def main (words : List String) : IO UInt32 := do
  let surroundings : Config.Surroundings :=
    ⟨← IO.getEnv "XDG_CONFIG_HOME", ← IO.getEnv "HOME"⟩
  let before ← Program.lookAround (← Program.workingDisk) surroundings words
  let outcome := Command.run before surroundings words
  Program.carryOut before outcome.disk
  IO.print outcome.stdout
  IO.eprint outcome.stderr
  return outcome.code
