import EventContract.Command.Run
import EventContract.Proofs.ExceptLaws
import Mathlib

/-! # Settings from layers

A run is set by its flags and by up to three files of configuration. Laying one over the other is
the same as looking each setting up on its own, from the flags down to the user's own file: the
first layer that gives it decides, and what no layer gives is as usual.
-/

namespace EventContract

/-! ## One setting -/

/-- The settings of a run. -/
inductive Config.Setting where
  | outputDirectory
  | emissionName
  | enclosing
  | transportInclude
  | jsonInclude
  | guard
  | consumptionName
  | configModule
  | baseUrlSymbol
  | baseDelay
  | maxAttempts
  deriving DecidableEq

namespace Config

/-- What a setting may be. -/
abbrev Setting.Value : Setting → Type
  | .guard => Emission.Guard
  | .baseDelay => Client.Duration
  | .maxAttempts => UInt32
  | _ => String

def Setting.all : List Setting :=
  [.outputDirectory, .emissionName, .enclosing, .transportInclude, .jsonInclude, .guard,
    .consumptionName, .configModule, .baseUrlSymbol, .baseDelay, .maxAttempts]

theorem Setting.mem_all (setting : Setting) : setting ∈ all := by
  cases setting <;> decide

/-- What a layer gives for a setting. -/
def given (config : Config) : (setting : Setting) → Option setting.Value
  | .outputDirectory => config.outputDirectory
  | .emissionName => config.emissionName
  | .enclosing => config.enclosing
  | .transportInclude => config.transportInclude
  | .jsonInclude => config.jsonInclude
  | .guard => config.guard
  | .consumptionName => config.consumptionName
  | .configModule => config.configModule
  | .baseUrlSymbol => config.baseUrlSymbol
  | .baseDelay => config.baseDelayMillis.map Client.Duration.ofMillis
  | .maxAttempts => config.maxAttempts

/-! ## Layers of configuration -/

theorem given_empty (setting : Setting) : empty.given setting = none := by
  cases setting <;> rfl

theorem given_laidOver (upper lower : Config) (setting : Setting) :
    (upper.laidOver lower).given setting = (upper.given setting).or (lower.given setting) := by
  cases setting <;> simp [laidOver, given, Option.map_or]

theorem laidOver_assoc (first second third : Config) :
    (first.laidOver second).laidOver third = first.laidOver (second.laidOver third) := by
  simp [laidOver, Option.or_assoc]

theorem empty_laidOver (config : Config) : empty.laidOver config = config := by
  simp [laidOver, empty]

theorem laidOver_empty (config : Config) : config.laidOver empty = config := by
  simp [laidOver, empty]

/-- The highest layer that gives a setting decides. -/
theorem given_layered (layers : List Config) (setting : Setting) :
    (layered layers).given setting = layers.reverse.findSome? fun layer => layer.given setting := by
  -- From the end, since the last layer is laid over all others.
  induction layers using List.reverseRecOn with
  | nil => exact given_empty setting
  | append_singleton layers top ih =>
      rw [layered, List.foldl_append, List.foldl_cons, List.foldl_nil, given_laidOver,
        List.reverse_append, List.reverse_singleton, List.singleton_append, List.findSome?_cons,
        ← ih]
      cases top.given setting <;> rfl

end Config

/-! ## What a run is set to -/

/-- The directory that a run writes to and the options of both artifacts. -/
structure Config.Settled where
  directory : String
  options : Options

namespace Config.Settled

/-- Settings that no layer gives: the working directory, and the usual options. -/
def usual : Settled :=
  ⟨".", Options.default⟩

def value (settled : Settled) : (setting : Setting) → setting.Value
  | .outputDirectory => settled.directory
  | .emissionName => settled.options.emission.outputName
  | .enclosing => settled.options.emission.enclosing
  | .transportInclude => settled.options.emission.transportInclude
  | .jsonInclude => settled.options.emission.jsonInclude
  | .guard => settled.options.emission.guard
  | .consumptionName => settled.options.consumption.outputName
  | .configModule => settled.options.consumption.configModule
  | .baseUrlSymbol => settled.options.consumption.baseUrlSymbol
  | .baseDelay => settled.options.consumption.backoff.baseDelay
  | .maxAttempts => settled.options.consumption.backoff.maxAttempts

def assign (settled : Settled) : (setting : Setting) → setting.Value → Settled
  | .outputDirectory, value => { settled with directory := value }
  | .emissionName, value => { settled with options.emission.outputName := value }
  | .enclosing, value => { settled with options.emission.enclosing := value }
  | .transportInclude, value => { settled with options.emission.transportInclude := value }
  | .jsonInclude, value => { settled with options.emission.jsonInclude := value }
  | .guard, value => { settled with options.emission.guard := value }
  | .consumptionName, value => { settled with options.consumption.outputName := value }
  | .configModule, value => { settled with options.consumption.configModule := value }
  | .baseUrlSymbol, value => { settled with options.consumption.baseUrlSymbol := value }
  | .baseDelay, value => { settled with options.consumption.backoff.baseDelay := value }
  | .maxAttempts, value => { settled with options.consumption.backoff.maxAttempts := value }

/-- With one setting as the layer gives it, if it does. -/
def override (layer : Config) (settled : Settled) (setting : Setting) : Settled :=
  match layer.given setting with
  | some value => settled.assign setting value
  | none => settled

/-- With every setting that the layer gives, one after the other. -/
def overridden (settled : Settled) (layer : Config) : Settled :=
  Setting.all.foldl (override layer) settled

variable {settled other : Settled}

theorem ext_value (h : ∀ setting, settled.value setting = other.value setting) :
    settled = other := by
  obtain ⟨directory, ⟨name, enclosing, transport, json, guard⟩,
    ⟨module, config, symbol, ⟨delay, attempts⟩⟩⟩ := settled
  obtain ⟨directory', ⟨name', enclosing', transport', json', guard'⟩,
    ⟨module', config', symbol', ⟨delay', attempts'⟩⟩⟩ := other
  simp only [mk.injEq, Options.mk.injEq, Emission.Options.mk.injEq, Consumption.Options.mk.injEq,
    Client.Backoff.mk.injEq]
  exact ⟨h .outputDirectory,
    ⟨h .emissionName, h .enclosing, h .transportInclude, h .jsonInclude, h .guard⟩,
    h .consumptionName, h .configModule, h .baseUrlSymbol, h .baseDelay, h .maxAttempts⟩

theorem value_assign (settled : Settled) (setting : Setting) (value : setting.Value) :
    (settled.assign setting value).value setting = value := by
  cases setting <;> rfl

theorem value_assign_of_ne {setting another : Setting} (hne : another ≠ setting)
    (settled : Settled) (value : setting.Value) :
    (settled.assign setting value).value another = settled.value another := by
  cases setting <;> cases another <;> first | exact absurd rfl hne | rfl

theorem value_override (layer : Config) (settled : Settled) (setting another : Setting) :
    (override layer settled another).value setting =
      if setting = another then (layer.given setting).getD (settled.value setting)
      else settled.value setting := by
  unfold override
  by_cases heq : setting = another
  · subst heq
    cases layer.given setting with
    | none => simp
    | some value => simp [value_assign]
  · cases layer.given another with
    | none => simp [heq]
    | some value => simp [heq, value_assign_of_ne heq]

/-- Over any list of settings: those in it are overridden, the others stay. -/
theorem value_foldl_override (layer : Config) (settings : List Setting) (settled : Settled)
    (setting : Setting) :
    (settings.foldl (override layer) settled).value setting =
      if setting ∈ settings then (layer.given setting).getD (settled.value setting)
      else settled.value setting := by
  induction settings generalizing settled with
  | nil => simp
  | cons first rest ih =>
      rw [List.foldl_cons, ih, value_override]
      by_cases hfirst : setting = first
      · -- What a layer gives is given again to no effect.
        cases layer.given setting <;> simp [hfirst]
      · simp [hfirst]

theorem value_overridden (settled : Settled) (layer : Config) (setting : Setting) :
    (settled.overridden layer).value setting =
      (layer.given setting).getD (settled.value setting) := by
  rw [overridden, value_foldl_override, if_pos setting.mem_all]

theorem value_foldl_overridden (layers : List Config) (settled : Settled) (setting : Setting) :
    (layers.foldl overridden settled).value setting =
      (layers.reverse.findSome? fun layer => layer.given setting).getD
        (settled.value setting) := by
  induction layers using List.reverseRecOn with
  | nil => rfl
  | append_singleton layers top ih =>
      rw [List.foldl_append, List.foldl_cons, List.foldl_nil, value_overridden, ih,
        List.reverse_append, List.reverse_singleton, List.singleton_append, List.findSome?_cons]
      cases top.given setting <;> rfl

end Config.Settled

namespace Config

/-- What a run with this configuration and no flags is set to. -/
def settled (config : Config) : Settled :=
  ⟨config.directory, config.options⟩

theorem value_settled (config : Config) (setting : Setting) :
    config.settled.value setting = (config.given setting).getD (Settled.usual.value setting) := by
  cases setting <;> rfl

/-- Laying configurations over one another comes to overriding the usual settings by each in
turn. -/
theorem settled_layered (layers : List Config) :
    (layered layers).settled = layers.foldl Settled.overridden Settled.usual := by
  apply Settled.ext_value
  intro setting
  rw [value_settled, given_layered, Settled.value_foldl_overridden]

/-! ## The files of a run -/

/-- The configurations that a run finds in files. -/
structure Files where
  /-- The user's own. -/
  user : Option Config
  project : Option Config
  /-- The one that is asked for. -/
  asked : Option Config

def Files.config (files : Files) : Config :=
  layered ([files.user, files.project, files.asked].filterMap id)

/-- What the user's own file holds; nothing if there is no place for such a file. -/
def ofUserFile (disk : Disk) (surroundings : Surroundings) : Except Failure (Option Config) :=
  match userPath? surroundings with
  | some path => ofFile disk path
  | none => .ok none

/-- Each file is well-formed or missing, and the one that is asked for is not missing. -/
structure Files.ReadFrom (files : Files) (disk : Disk) (surroundings : Surroundings)
    (root : String) (explicit : Option String) : Prop where
  user : ofUserFile disk surroundings = .ok files.user
  project : ofFile disk (projectPath root) = .ok files.project
  asked : explicit.mapM (ofRequiredFile disk) = .ok files.asked

theorem load_eq_ok_iff {disk : Disk} {surroundings : Surroundings} {root : String}
    {explicit : Option String} {config : Config} :
    load disk surroundings root explicit = .ok config ↔
      ∃ files : Files, files.ReadFrom disk surroundings root explicit ∧ config = files.config := by
  have hload : load disk surroundings root explicit = ofUserFile disk surroundings >>= fun user =>
      ofFile disk (projectPath root) >>= fun project =>
        explicit.mapM (ofRequiredFile disk) >>= fun asked =>
          .ok (Files.config ⟨user, project, asked⟩) := by
    rw [load, ofUserFile]
    cases userPath? surroundings <;> rfl
  rw [hload]
  constructor
  · intro h
    obtain ⟨user, huser, h⟩ := bind_eq_ok_iff.mp h
    obtain ⟨project, hproject, h⟩ := bind_eq_ok_iff.mp h
    obtain ⟨asked, hasked, h⟩ := bind_eq_ok_iff.mp h
    exact ⟨⟨user, project, asked⟩, ⟨huser, hproject, hasked⟩, (Except.ok.inj h).symm⟩
  · rintro ⟨files, ⟨huser, hproject, hasked⟩, rfl⟩
    rw [huser, hproject, hasked]
    rfl

/-- A file that is missing gives nothing, and of the others the last one read comes first. -/
theorem given_config (files : Files) (setting : Setting) :
    files.config.given setting =
      [files.asked, files.project, files.user].findSome? fun layer =>
        layer.bind fun config => config.given setting := by
  obtain ⟨user, project, asked⟩ := files
  rw [Files.config, given_layered]
  cases user <;> cases project <;> cases asked <;> rfl

end Config

/-! ## The flags of a run -/

namespace Command

open Config (Files Settled)

/-- The flags as a layer of their own. -/
def GenerateFlags.layer (flags : GenerateFlags) : Config :=
  { Config.empty with
    outputDirectory := flags.output
    emissionName := flags.emissionName
    enclosing := flags.enclosing
    guard := if flags.definedGuard then some .defined else none
    consumptionName := flags.consumptionName }

/-- What a run with these flags and files is set to. -/
def settled (flags : GenerateFlags) (files : Files) : Settled :=
  (effective flags files.config).settled

/-- What the layers of a run give for a setting, the flags first. -/
def given (flags : GenerateFlags) (files : Files) (setting : Config.Setting) :
    List (Option setting.Value) :=
  [some flags.layer, files.asked, files.project, files.user].map fun layer =>
    layer.bind fun config => config.given setting

theorem value_settled (flags : GenerateFlags) (files : Files) (setting : Config.Setting) :
    (settled flags files).value setting =
      ((given flags files setting).findSome? id).getD (Settled.usual.value setting) := by
  have heffective : effective flags files.config = flags.layer.laidOver files.config := rfl
  have hflags (layers : List (Option Config)) :
      ((some flags.layer :: layers).findSome? fun layer =>
        layer.bind fun config => config.given setting) =
      (flags.layer.given setting).or (layers.findSome? fun layer =>
        layer.bind fun config => config.given setting) := by
    rw [List.findSome?_cons, Option.bind_some]
    cases flags.layer.given setting <;> rfl
  rw [settled, heffective, Config.value_settled, Config.given_laidOver, Config.given_config, given,
    List.findSome?_map, Function.id_comp, hflags]

/-- A run does the same with other flags and another configuration if they come to the same
settings. -/
theorem generate_congr {flags others : GenerateFlags} {config another : Config}
    (hstdout : flags.stdout = others.stdout)
    (hsettled : (effective flags config).settled = (effective others another).settled)
    (disk : Disk) (schema : String) :
    generate disk schema flags config = generate disk schema others another := by
  obtain ⟨hdirectory, hoptions⟩ := Settled.mk.inj hsettled
  obtain ⟨hemission, hconsumption⟩ := Options.mk.inj hoptions
  simp only [generate, hstdout, hdirectory, hoptions, hemission, hconsumption]

/-- The configuration of a run is put together from its files, if they can be read. Each setting is
then that of the flags, of the file that is asked for, of the project's or of the user's, whichever
of these gives it first, or else as usual; what the layers give for other settings makes no
difference, and a run makes none between flags and files that come to the same settings. Laying
one configuration over another is associative, with the empty one as its neutral element, and lays
over the usual settings what each layer gives in turn. -/
theorem settings_by_precedence :
    (∀ disk surroundings root explicit config,
      Config.load disk surroundings root explicit = .ok config ↔
        ∃ files : Files, files.ReadFrom disk surroundings root explicit ∧
          config = files.config) ∧
      (∀ flags files setting, (settled flags files).value setting =
        ((given flags files setting).findSome? id).getD (Settled.usual.value setting)) ∧
      (∀ flags files others another setting,
        given others another setting = given flags files setting →
          (settled others another).value setting = (settled flags files).value setting) ∧
      (∀ disk schema flags files others another, flags.stdout = others.stdout →
        settled flags files = settled others another →
          generate disk schema flags (Files.config files) =
            generate disk schema others (Files.config another)) ∧
      (∀ first second third : Config,
        (first.laidOver second).laidOver third = first.laidOver (second.laidOver third)) ∧
      (∀ config : Config, Config.empty.laidOver config = config ∧
        config.laidOver Config.empty = config) ∧
      ∀ layers,
        (Config.layered layers).settled = layers.foldl Settled.overridden Settled.usual := by
  refine ⟨fun _ _ _ _ _ => Config.load_eq_ok_iff, value_settled, ?_, ?_, Config.laidOver_assoc,
    fun config => ⟨config.empty_laidOver, config.laidOver_empty⟩, Config.settled_layered⟩
  · intro flags files others another setting hgiven
    rw [value_settled, value_settled, hgiven]
  · intro disk schema flags files others another hstdout hsettled
    exact generate_congr hstdout hsettled disk schema

/-- Four layers, each of which decides on a setting, and a setting that none of them gives. The
number of attempts is the same without all that they give besides. -/
theorem settings_by_precedence_sample :
    let flags : GenerateFlags := ⟨none, none, some "Flags", none, none, true⟩
    let files : Files :=
      ⟨some { Config.empty with
          enclosing := some "User", jsonInclude := some "json.hpp", maxAttempts := some 3 },
        some { Config.empty with enclosing := some "Project", outputDirectory := some "gen" },
        some { Config.empty with enclosing := some "Asked", maxAttempts := some 7 }⟩
    let bare : Files :=
      ⟨some { Config.empty with maxAttempts := some 3 }, none,
        some { Config.empty with maxAttempts := some 7 }⟩
    (settled flags files).value .enclosing = "Flags" ∧
      (settled flags files).value .maxAttempts = 7 ∧
      (settled flags files).value .outputDirectory = "gen" ∧
      (settled flags files).value .jsonInclude = "json.hpp" ∧
      (settled flags files).value .emissionName = "Events.hpp" ∧
      (settled ⟨none, none, none, none, none, false⟩ bare).value .maxAttempts =
        (settled flags files).value .maxAttempts := by
  intro flags files bare
  obtain ⟨-, hvalue, hapart, -⟩ := settings_by_precedence
  exact ⟨hvalue flags files .enclosing, hvalue flags files .maxAttempts,
    hvalue flags files .outputDirectory, hvalue flags files .jsonInclude,
    hvalue flags files .emissionName, hapart flags files _ bare .maxAttempts rfl⟩

end Command

end EventContract
