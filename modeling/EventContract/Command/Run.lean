import EventContract.Command.Arguments
import EventContract.Config.Layers
import EventContract.Schema.Writing
/-!
# Running a command

A command is a function from the disk to the disk and to what is printed. `generate` writes both
artifacts of a schema, or prints one of them; `check` says that a schema is well-formed; `resolve`
prints a schema with all its ancestors folded in.
-/

namespace EventContract.Command

/-- What a run leaves. -/
structure Outcome where
  code : UInt32
  stdout : String
  stderr : String
  disk : Disk

def failed (disk : Disk) (told message : String) : Outcome :=
  ⟨1, "", told ++ "error: " ++ message ++ "\n", disk⟩

def printed (disk : Disk) (text : String) : Outcome :=
  ⟨0, text, "", disk⟩

/-- A problem with its cause, where it has one of its own. -/
def problemText : Problem → String
  | .unreadable path cause => (Problem.unreadable path cause).message ++ ": " ++ cause.message
  | problem => problem.message

/-- The settings of a run: those of its flags, and of the configuration where no flag sets them. -/
def effective (flags : GenerateFlags) (config : Config) : Config :=
  { Config.empty with
    outputDirectory := flags.output
    emissionName := flags.emissionName
    enclosing := flags.enclosing
    guard := if flags.definedGuard then some .defined else none
    consumptionName := flags.consumptionName }.laidOver config

/-- Writes artifacts one after the other up to the first one that cannot be written. `told` is what
has been said so far. -/
def saveAll (disk : Disk) (directory told : String) : List Artifact → Outcome
  | [] => ⟨0, "", told, disk⟩
  | artifact :: rest =>
    match artifact.save disk directory with
    | (.ok path, disk) => saveAll disk directory (told ++ "Generated " ++ path ++ "\n") rest
    | (.error cause, disk) =>
      failed disk told ("failed to write " ++ artifact.outputName ++ " to " ++ directory ++ ": " ++
        cause.message)

/-- Writes the artifacts of a schema, or prints the one that is asked for. -/
def generate (disk : Disk) (schema : String) (flags : GenerateFlags) (config : Config) : Outcome :=
  let config := effective flags config
  match Contract.ofFile disk schema with
  | .error problem =>
    failed disk "" ("failed to load schema " ++ schema ++ ": " ++ problemText problem)
  | .ok contract =>
    match flags.stdout with
    | some .emission => printed disk (contract.emission config.emissionOptions).content
    | some .consumption => printed disk (contract.consumption config.consumptionOptions).content
    | none => saveAll disk config.directory "" (contract.artifacts config.options)

/-- The schema in a file, or what to say if there is none. -/
def schemaOf (disk : Disk) (path : String) : Except String Schema :=
  match disk.loadDocument path with
  | .error problem => .error ("failed to load schema " ++ path ++ ": " ++ problemText problem)
  | .ok document =>
    match Schema.ofDocument (disk.catalog ".") document with
    | .error problem => .error ("invalid schema " ++ path ++ ": " ++ problemText problem)
    | .ok schema => .ok schema

/-- Says that a schema is well-formed. -/
def check (disk : Disk) (path : String) : Outcome :=
  match schemaOf disk path with
  | .error message => failed disk "" message
  | .ok schema =>
    let count := schema.events.length
    let noun := if count = 1 then "event" else "events"
    printed disk (path ++ ": ok, " ++ toString count ++ " " ++ noun ++ " on " ++ schema.endpoint ++
      "\n")

/-- Prints a schema. -/
def resolve (disk : Disk) (path : String) : Outcome :=
  match schemaOf disk path with
  | .error message => failed disk "" message
  | .ok schema => printed disk (schema.toJson.pretty ++ "\n")

def usage : String :=
  "Usage: eventgen [--config CONFIG] [-v] <COMMAND>\n\n" ++
  "Commands:\n" ++
  "  generate SCHEMA  Write both artifacts for a schema\n" ++
  "  check SCHEMA     Resolve and validate a schema\n" ++
  "  resolve SCHEMA   Print a schema with its extends chain folded in, as JSON\n\n" ++
  "Options of generate:\n" ++
  "  -o, --output DIR            Output directory\n" ++
  "      --stdout TARGET         Print one artifact: emission or consumption\n" ++
  "      --namespace NAME        C++ namespace for the publish functions\n" ++
  "      --emission-name NAME    File name of the C++ header\n" ++
  "      --consumption-name NAME File name of the TypeScript module\n" ++
  "      --macro-guard           Use an #ifndef include guard\n"

/-- Runs a command line in the working directory of a disk. -/
def run (disk : Disk) (surroundings : Config.Surroundings) (words : List String) : Outcome :=
  match request words with
  | .help => printed disk usage
  | .version => printed disk "eventgen 0.1.0\n"
  | .misuse => ⟨2, "", usage, disk⟩
  | .run _ (.check schema) => check disk schema
  | .run _ (.resolve schema) => resolve disk schema
  | .run config (.generate schema flags) =>
    match Config.load disk surroundings "." config with
    | .error failure => failed disk "" failure.fullMessage
    | .ok config => generate disk schema flags config

end EventContract.Command
