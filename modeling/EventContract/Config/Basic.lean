import EventContract.Generation
/-!
# Configuration

What a configuration file may set: eleven settings, each of them optional. A configuration laid over
another one takes the place of exactly those settings that it sets itself, and what no layer sets
keeps its default.
-/

namespace EventContract

/-- Settings, each of which may be open. -/
structure Config where
  outputDirectory : Option String
  emissionName : Option String
  enclosing : Option String
  transportInclude : Option String
  jsonInclude : Option String
  guard : Option Emission.Guard
  consumptionName : Option String
  configModule : Option String
  baseUrlSymbol : Option String
  baseDelayMillis : Option UInt64
  maxAttempts : Option UInt32
  deriving DecidableEq

namespace Config

def empty : Config :=
  ⟨none, none, none, none, none, none, none, none, none, none, none⟩

/-- The settings of `upper`, and where it leaves one open, that of `lower`. -/
def laidOver (upper lower : Config) : Config where
  outputDirectory := upper.outputDirectory <|> lower.outputDirectory
  emissionName := upper.emissionName <|> lower.emissionName
  enclosing := upper.enclosing <|> lower.enclosing
  transportInclude := upper.transportInclude <|> lower.transportInclude
  jsonInclude := upper.jsonInclude <|> lower.jsonInclude
  guard := upper.guard <|> lower.guard
  consumptionName := upper.consumptionName <|> lower.consumptionName
  configModule := upper.configModule <|> lower.configModule
  baseUrlSymbol := upper.baseUrlSymbol <|> lower.baseUrlSymbol
  baseDelayMillis := upper.baseDelayMillis <|> lower.baseDelayMillis
  maxAttempts := upper.maxAttempts <|> lower.maxAttempts

/-- Layers laid one over the other, the lowest first. -/
def layered (layers : List Config) : Config :=
  layers.foldl (fun lower upper => upper.laidOver lower) empty

def directory (config : Config) : String :=
  config.outputDirectory.getD "."

def emissionOptions (config : Config) : Emission.Options :=
  let usual := Emission.Options.default
  { outputName := config.emissionName.getD usual.outputName
    enclosing := config.enclosing.getD usual.enclosing
    transportInclude := config.transportInclude.getD usual.transportInclude
    jsonInclude := config.jsonInclude.getD usual.jsonInclude
    guard := config.guard.getD usual.guard }

def consumptionOptions (config : Config) : Consumption.Options :=
  let usual := Consumption.Options.default
  { outputName := config.consumptionName.getD usual.outputName
    configModule := config.configModule.getD usual.configModule
    baseUrlSymbol := config.baseUrlSymbol.getD usual.baseUrlSymbol
    backoff :=
      { baseDelay := (config.baseDelayMillis.map Client.Duration.ofMillis).getD
          usual.backoff.baseDelay
        maxAttempts := config.maxAttempts.getD usual.backoff.maxAttempts } }

def options (config : Config) : Options :=
  ⟨config.emissionOptions, config.consumptionOptions⟩

end Config

end EventContract
