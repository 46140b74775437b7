import EventContract.Config.Reading
import EventContract.Disk.Basic
/-!
# Layers of configuration

A configuration is put together from up to three files: the user's own, that of the project, and one
that is asked for. Each is laid over those before it. A file of the first two kinds may be missing;
one that is asked for may not.
-/

namespace EventContract.Config

/-- Why a configuration cannot be put together. -/
inductive Failure where
  /-- The file that was asked for is not there. -/
  | missing (path : String)
  /-- The file is not text. -/
  | unreadable (path : String)
  /-- The text is no configuration. -/
  | invalid (path : String)
  deriving DecidableEq, Repr

def Failure.message : Failure → String
  | .missing path => "config file " ++ path ++ " not found"
  | .unreadable path => "failed to read config " ++ path
  | .invalid path => "invalid config " ++ path

/-- The failure in words, with its cause where the cause is known. -/
def Failure.fullMessage : Failure → String
  | .unreadable path =>
    "failed to read config " ++ path ++ ": stream did not contain valid UTF-8"
  | failure => failure.message

/-- The directories that the environment names. -/
structure Surroundings where
  /-- The directory of the user's configurations, if the environment says so. -/
  configHome : Option String
  /-- The user's home directory. -/
  home : Option String

def userPath? (surroundings : Surroundings) : Option String :=
  let configHome := surroundings.configHome <|>
    surroundings.home.map fun home => Disk.Path.join home ".config"
  configHome.map fun directory =>
    Disk.Path.join (Disk.Path.join directory "eventgen") "config.toml"

def projectPath (root : String) : String :=
  Disk.Path.join (Disk.Path.join root ".eventgen") "config.toml"

def ofFile (disk : Disk) (path : String) : Except Failure (Option Config) :=
  match disk.read path with
  | .error _ => .ok none
  | .ok content =>
    match Text.Utf8.decode content with
    | .error _ => .error (.unreadable path)
    | .ok text =>
      match ofText? text with
      | some config => .ok (some config)
      | none => .error (.invalid path)

/-- The configuration in a file that has to be there. -/
def ofRequiredFile (disk : Disk) (path : String) : Except Failure Config := do
  match ← ofFile disk path with
  | some config => return config
  | none => .error (.missing path)

/-- The configuration of a project in `root`. -/
def load (disk : Disk) (surroundings : Surroundings) (root : String) (explicit : Option String) :
    Except Failure Config := do
  let user ← match userPath? surroundings with
    | some path => ofFile disk path
    | none => .ok none
  let project ← ofFile disk (projectPath root)
  let asked ← explicit.mapM (ofRequiredFile disk)
  return layered ([user, project, asked].filterMap id)

end EventContract.Config
