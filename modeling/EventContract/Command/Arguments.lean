import EventContract.Artifact
/-!
# Arguments of the command line

What the words of a command line ask for. Words are read from left to right: a request for help or
for the version is granted as soon as it is read, and the first word that does not fit ends the
reading. An option is given once at most, its value is the next word or what is attached to it, and
a value that stands by itself does not begin with a dash, unless it is nothing but the dash. Behind
a double dash all words are values.
-/

namespace EventContract.Command

/-- What `generate` is asked for besides its schema. -/
structure GenerateFlags where
  output : Option String
  stdout : Option Target
  enclosing : Option String
  emissionName : Option String
  consumptionName : Option String
  definedGuard : Bool
  deriving DecidableEq, Repr

/-- What is to be done. -/
inductive Action where
  | generate (schema : String) (flags : GenerateFlags)
  | check (schema : String)
  | resolve (schema : String)
  deriving DecidableEq, Repr

/-- What a command line comes to. -/
inductive Request where
  | run (config : Option String) (action : Action)
  | help
  | version
  /-- The words do not fit together. -/
  | misuse
  deriving DecidableEq, Repr

/-- The commands. -/
inductive Verb where
  | generate
  | check
  | resolve
  deriving DecidableEq, Repr

def Verb.ofName? (name : String) : Option Verb :=
  if name = "generate" then some .generate
  else if name = "check" then some .check
  else if name = "resolve" then some .resolve
  else none

/-- Options that have a value. -/
inductive Setting where
  | config
  | output
  | stdout
  | enclosing
  | emissionName
  | consumptionName
  deriving DecidableEq, Repr

/-- Anything that begins with a dash. -/
inductive Flag where
  | setting (setting : Setting)
  | verbose
  | definedGuard
  | help
  | version
  deriving DecidableEq, Repr

/-- What a long name means, behind its dashes; `verb` is the command that has been read. -/
def longFlag? (verb : Option Verb) (name : String) : Option Flag :=
  if name = "config" then some (.setting .config)
  else if name = "verbose" then some .verbose
  else if name = "help" then some .help
  else match verb with
    | none => if name = "version" then some .version else none
    | some .generate =>
      if name = "output" then some (.setting .output)
      else if name = "stdout" then some (.setting .stdout)
      else if name = "namespace" then some (.setting .enclosing)
      else if name = "emission-name" then some (.setting .emissionName)
      else if name = "consumption-name" then some (.setting .consumptionName)
      else if name = "macro-guard" then some .definedGuard
      else none
    | some _ => none

def shortFlag? (verb : Option Verb) (letter : Char) : Option Flag :=
  if letter = 'v' then some .verbose
  else if letter = 'h' then some .help
  else if letter = 'V' && verb.isNone then some .version
  else if letter = 'o' && verb = some .generate then some (.setting .output)
  else none

/-- What has been read of a command line. -/
structure Progress where
  verb : Option Verb
  /-- The schema of the command. -/
  schema : Option String
  /-- The configuration that is asked for, in front of the command and behind it. -/
  config : Option String
  verbConfig : Option String
  flags : GenerateFlags

def Progress.start : Progress :=
  ⟨none, none, none, none, ⟨none, none, none, none, none, false⟩⟩

def targetOfWord? (word : String) : Option Target :=
  if word = "emission" then some .emission
  else if word = "consumption" then some .consumption
  else none

/-- A path; the empty text is none. -/
def asPath? (text : String) : Option String :=
  if text.isEmpty then none else some text

def once {α : Type} (old : Option α) (new : Option α) : Option (Option α) :=
  match old, new with
  | none, some value => some (some value)
  | _, _ => none

namespace Progress

def set (p : Progress) (setting : Setting) (value : String) : Option Progress :=
  match setting with
  | .config =>
    if p.verb.isNone then (once p.config (asPath? value)).map fun config => { p with config }
    else (once p.verbConfig (asPath? value)).map fun verbConfig => { p with verbConfig }
  | .output =>
    (once p.flags.output (asPath? value)).map fun output =>
      { p with flags := { p.flags with output } }
  | .stdout =>
    (once p.flags.stdout (targetOfWord? value)).map fun stdout =>
      { p with flags := { p.flags with stdout } }
  | .enclosing =>
    (once p.flags.enclosing (some value)).map fun enclosing =>
      { p with flags := { p.flags with enclosing } }
  | .emissionName =>
    (once p.flags.emissionName (some value)).map fun emissionName =>
      { p with flags := { p.flags with emissionName } }
  | .consumptionName =>
    (once p.flags.consumptionName (some value)).map fun consumptionName =>
      { p with flags := { p.flags with consumptionName } }

/-- The guard on a name, asked for once. -/
def setDefinedGuard (p : Progress) : Option Progress :=
  if p.flags.definedGuard then none
  else some { p with flags := { p.flags with definedGuard := true } }

/-- A value that stands by itself: the schema of the command. -/
def addValue (p : Progress) (value : String) : Option Progress :=
  if p.verb.isNone then none
  else (once p.schema (asPath? value)).map fun schema => { p with schema }

/-- What everything that has been read comes to. A configuration behind the command counts before
one in front of it. -/
def finish (p : Progress) : Request :=
  let config := p.verbConfig <|> p.config
  match p.verb, p.schema with
  | some .generate, some schema => .run config (.generate schema p.flags)
  | some .check, some schema => .run config (.check schema)
  | some .resolve, some schema => .run config (.resolve schema)
  | _, _ => .misuse

end Progress

/-- What a single word that begins with a dash leads to. -/
inductive Reading where
  | further (progress : Progress)
  /-- The next word is the value of an option. -/
  | awaiting (progress : Progress) (setting : Setting)
  | done (request : Request)

/-- The outcome of a step that may not fit. -/
def Reading.ofOption : Option Progress → Reading
  | some progress => .further progress
  | none => .done .misuse

/-- A word behind two dashes: a name, with a value behind an equals sign if it has one. -/
def readLong (p : Progress) (word : String) : Reading :=
  let cs := word.toList
  let name := String.ofList (cs.takeWhile (· ≠ '='))
  let attached := match cs.dropWhile (· ≠ '=') with
    | [] => none
    | _ :: value => some (String.ofList value)
  match longFlag? p.verb name, attached with
  | some (.setting setting), some value => .ofOption (p.set setting value)
  | some (.setting setting), none => .awaiting p setting
  | some .verbose, none => .further p
  | some .definedGuard, none => .ofOption p.setDefinedGuard
  | some .help, none => .done .help
  | some .version, none => .done .version
  | _, _ => .done .misuse

/-- Letters behind a single dash. An option that has a value takes the rest of the word for it,
without an equals sign in front. -/
def readShort (p : Progress) : List Char → Reading
  | [] => .further p
  | letter :: rest =>
    match shortFlag? p.verb letter with
    | some (.setting setting) =>
      match rest with
      | [] => .awaiting p setting
      | '=' :: value => .ofOption (p.set setting (String.ofList value))
      | value => .ofOption (p.set setting (String.ofList value))
    | some .verbose => readShort p rest
    | some .help => .done .help
    | some .version => .done .version
    | _ => .done .misuse

/-- The words behind `help`: the names of a command, if any. -/
def readHelp : List String → Request
  | [] => .help
  | [name] => if (Verb.ofName? name).isSome || name = "help" then .help else .misuse
  | _ => .misuse

def readValues (p : Progress) : List String → Request
  | [] => p.finish
  | word :: rest =>
    match p.addValue word with
    | some p => readValues p rest
    | none => .misuse

/-- A word is a value, not a flag. -/
def isValue (word : String) : Bool :=
  word.toList.head? ≠ some '-' || word = "-"

/-- Reads the words that are left; `awaited` is the option whose value comes next. -/
def readWords (p : Progress) (awaited : Option Setting) : List String → Request
  | [] => if awaited.isSome then .misuse else p.finish
  | word :: rest =>
    match awaited with
    | some setting =>
      if isValue word then
        match p.set setting word with
        | some p => readWords p none rest
        | none => .misuse
      else .misuse
    | none =>
      if word = "--" then readValues p rest
      else if isValue word then
        if p.verb.isSome then
          match p.addValue word with
          | some p => readWords p none rest
          | none => .misuse
        else if word = "help" then readHelp rest
        else match Verb.ofName? word with
          | some verb => readWords { p with verb } none rest
          | none => .misuse
      else
        let reading := match word.toList with
          | '-' :: '-' :: name => readLong p (String.ofList name)
          | cs => readShort p (cs.drop 1)
        match reading with
        | .further p => readWords p none rest
        | .awaiting p setting => readWords p (some setting) rest
        | .done request => request

def request (words : List String) : Request :=
  readWords .start none words

end EventContract.Command
