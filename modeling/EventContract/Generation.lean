import EventContract.Consumption.Module
import EventContract.Disk.Schemas
import EventContract.Emission.Header
/-!
# Generating both artifacts

A contract is a schema that is ready to be written from: it has been checked, and it remembers how
its source is called. Both artifacts are functions of the contract and of the settings, so a
contract gives the same artifacts every time.
-/

namespace EventContract

/-- Settings of both artifacts. -/
structure Options where
  emission : Emission.Options
  consumption : Consumption.Options
  deriving DecidableEq

/-- Settings as they are when nothing is asked for. -/
def Options.default : Options :=
  ⟨Emission.Options.default, Consumption.Options.default⟩

/-- What the banner of an artifact calls the source of a schema: a file by its own name. -/
def Origin.label : Origin → String
  | .file path => (Disk.Path.fileName? path).getD path
  | .named name => name
  | .inline => "an inline schema"

/-- A checked schema and what its source is called. -/
structure Contract where
  schema : Schema
  source : String

namespace Contract

/-- The contract of a document and its ancestors. -/
def ofDocument (catalog : Catalog) (document : Document) : Except Problem Contract := do
  let schema ← Schema.ofDocument catalog document
  return ⟨schema, document.origin.label⟩

def ofFile (disk : Disk) (path : String) : Except Problem Contract := do
  let document ← disk.loadDocument path
  ofDocument (disk.catalog ".") document

def emission (contract : Contract) (options : Emission.Options) : Artifact :=
  ⟨.emission, options.outputName, Emission.headerText contract.schema options contract.source⟩

def consumption (contract : Contract) (options : Consumption.Options) : Artifact :=
  ⟨.consumption, options.outputName,
    Consumption.moduleText contract.schema options contract.source⟩

def artifacts (contract : Contract) (options : Options) : List Artifact :=
  [contract.emission options.emission, contract.consumption options.consumption]

end Contract

/-- Writes an artifact into a directory, which is made if it is missing. Gives the path written, or
the cause for which that was refused, and the disk as it is then. -/
def Artifact.save (artifact : Artifact) (disk : Disk) (directory : String) :
    Except Disk.FileError String × Disk :=
  match disk.createDirectories directory with
  | (.error cause, disk) => (.error cause, disk)
  | (.ok (), disk) =>
    let path := Disk.Path.join directory artifact.outputName
    match disk.write path artifact.content.toUTF8 with
    | .ok disk => (.ok path, disk)
    | .error cause => (.error cause, disk)

end EventContract
