import EventContract.Command.Run
import EventContract.Proofs.DiskChanges
import EventContract.Proofs.TextLines
import Mathlib

/-! # What a run leaves on the disk

A run that writes both artifacts leaves a file with each of them and changes no other file, but for
one case: where both are written to one place, the second takes the place of the first.
-/

namespace EventContract

open Disk Text

variable {disk before after : Disk} {directory told : String} {artifact : Artifact}
  {artifacts : List Artifact} {place : List String}

/-! ## Two different texts -/

/-- Behind the banner that they share, the header goes on with a directive and the module with an
import. -/
theorem headerText_ne_moduleText (schema : Schema) (emission : Emission.Options)
    (consumption : Consumption.Options) (source : String) :
    Emission.headerText schema emission source ≠
      Consumption.moduleText schema consumption source := by
  intro h
  rw [Emission.headerText, Emission.headerLines, Consumption.moduleText,
    Consumption.moduleLines] at h
  simp only [List.append_assoc] at h
  rw [← List.append_assoc, ← List.append_assoc (banner source), unlines_append (_ ++ [""]),
    unlines_append (_ ++ [""]), String.append_right_inj] at h
  have hhead := congrArg (fun text => text.toList.head?) h
  rw [Emission.guardOpening, Consumption.endpointSection] at hhead
  split at hhead <;> simp [toList_unlines_cons] at hhead

theorem Contract.content_ne (contract : Contract) (options : Options) :
    (contract.emission options.emission).content ≠
      (contract.consumption options.consumption).content := by
  rw [Contract.emission, Contract.consumption]
  dsimp only
  exact headerText_ne_moduleText contract.schema options.emission options.consumption
    contract.source

/-! ## Saving artifacts -/

/-- Where an artifact is written to. -/
def Artifact.pathIn (artifact : Artifact) (directory : String) : String :=
  Path.join directory artifact.outputName

theorem Artifact.writes_of_save {path : String}
    (h : artifact.save disk directory = (.ok path, after)) :
    ∃ place, Writes disk (artifact.pathIn directory) artifact.content.toUTF8 place after := by
  have hadded := addsDirectories_createDirectories disk directory
  unfold save at h
  split at h
  next => cases h
  next made hmade =>
    rw [hmade] at hadded
    dsimp only at h
    split at h
    next hwrite =>
      cases h
      obtain ⟨place, hwrites⟩ := writes_of_write hwrite
      exact ⟨place, hadded.writes hwrites⟩
    next => cases h

/-- The content that artifacts, saved to places one after the other, leave at a place. -/
def savedAt (place : List String) : List (Artifact × List String) → Option ByteArray
  | [] => none
  | (artifact, own) :: rest =>
    (savedAt place rest).or (if place = own then some artifact.content.toUTF8 else none)

/-- Artifacts have been saved, each by its own path. -/
structure Saves (before : Disk) (directory : String) (saved : List (Artifact × List String))
    (after : Disk) : Prop where
  grows : Grows before after
  names : ∀ one ∈ saved, after.Names (one.1.pathIn directory) one.2
  files : ∀ place, after.file? place = (savedAt place saved).or (before.file? place)

theorem Saves.nil (disk : Disk) (directory : String) : Saves disk directory [] disk :=
  ⟨.refl disk, by simp, fun _ => rfl⟩

theorem Saves.cons {between : Disk} {saved : List (Artifact × List String)}
    (first : Writes before (artifact.pathIn directory) artifact.content.toUTF8 place between)
    (rest : Saves between directory saved after) :
    Saves before directory ((artifact, place) :: saved) after where
  grows := first.grows.trans rest.grows
  names := List.forall_mem_cons.mpr ⟨first.names.grow rest.grows, rest.names⟩
  files other := by
    rw [rest.files, first.files, savedAt, Option.or_assoc]
    split <;> rfl

/-- A run that reports success has saved every artifact. -/
theorem Command.saves_of_saveAll (h : (saveAll disk directory told artifacts).code = 0) :
    ∃ places, places.length = artifacts.length ∧
      Saves disk directory (artifacts.zip places) (saveAll disk directory told artifacts).disk := by
  induction artifacts generalizing disk told with
  | nil => exact ⟨[], rfl, .nil disk directory⟩
  | cons artifact rest ih =>
      unfold saveAll at h ⊢
      split at h
      next path between hsave =>
        obtain ⟨place, hwrites⟩ := Artifact.writes_of_save hsave
        obtain ⟨places, hlength, hsaves⟩ := ih h
        exact ⟨place :: places, congrArg (· + 1) hlength, .cons hwrites hsaves⟩
      next => cases h

/-! ## Every artifact in its file -/

/-- Each artifact can be read where it was to be written, and every other file is as it was. -/
structure LeavesArtifacts (before after : Disk) (directory : String) (artifacts : List Artifact) :
    Prop where
  held : ∀ artifact ∈ artifacts,
    after.read (artifact.pathIn directory) = .ok artifact.content.toUTF8
  others : ∀ place,
    (∀ artifact ∈ artifacts, after.resolve (artifact.pathIn directory) ≠ .ok place) →
      after.file? place = before.file? place

theorem savedAt_eq_none_iff {saved : List (Artifact × List String)} :
    savedAt place saved = none ↔ ∀ one ∈ saved, one.2 ≠ place := by
  induction saved with
  | nil => simp [savedAt]
  | cons one rest ih =>
      rw [savedAt, Option.or_eq_none_iff, ih, List.forall_mem_cons, and_comm]
      simp [eq_comm]

theorem exists_of_savedAt {saved : List (Artifact × List String)} {content : ByteArray}
    (h : savedAt place saved = some content) :
    ∃ one ∈ saved, one.2 = place ∧ one.1.content.toUTF8 = content := by
  induction saved with
  | nil => cases h
  | cons one rest ih =>
      rw [savedAt, Option.or_eq_some_iff] at h
      obtain hrest | ⟨-, hone⟩ := h
      · obtain ⟨other, hmem, hother⟩ := ih hrest
        exact ⟨other, List.mem_cons_of_mem one hmem, hother⟩
      · obtain ⟨rfl, hcontent⟩ := Option.ite_none_right_eq_some.mp hone
        exact ⟨one, List.mem_cons_self, rfl, Option.some.inj hcontent⟩

/-- Saved artifacts are all still there if those of one place have one content. -/
theorem savedAt_own_iff {saved : List (Artifact × List String)} :
    (∀ one ∈ saved, savedAt one.2 saved = some one.1.content.toUTF8) ↔
      saved.Pairwise fun one other => one.2 = other.2 → one.1.content = other.1.content := by
  induction saved with
  | nil => simp
  | cons first rest ih =>
      -- What stands at the place of a later artifact was saved after the first.
      have hlater : (∀ one ∈ rest, savedAt one.2 (first :: rest) = some one.1.content.toUTF8) ↔
          ∀ one ∈ rest, savedAt one.2 rest = some one.1.content.toUTF8 := by
        refine forall₂_congr fun one hone => ?_
        cases hrest : savedAt one.2 rest with
        | none => exact absurd rfl (savedAt_eq_none_iff.mp hrest one hone)
        | some content => simp [savedAt, hrest]
      rw [List.forall_mem_cons, hlater, ih, List.pairwise_cons]
      refine and_congr_left fun hpairwise => ?_
      rw [savedAt, if_pos rfl]
      constructor
      · intro hfirst other hother hplace
        have hown := ih.mpr hpairwise other hother
        rw [hplace, hown] at hfirst
        exact (String.toByteArray_inj.mp (Option.some.inj hfirst)).symm
      · intro hsame
        cases hrest : savedAt first.2 rest with
        | none => rfl
        | some content =>
            obtain ⟨other, hother, hplace, rfl⟩ := exists_of_savedAt hrest
            rw [hsame other hother hplace.symm]
            rfl

theorem Saves.leavesArtifacts_iff {saved : List (Artifact × List String)}
    (saves : Saves before directory saved after) :
    LeavesArtifacts before after directory (saved.map Prod.fst) ↔
      saved.Pairwise fun one other => one.2 = other.2 → one.1.content = other.1.content := by
  rw [← savedAt_own_iff]
  constructor
  · rintro ⟨hheld, -⟩ one hone
    have hread := hheld one.1 (List.mem_map_of_mem hone)
    rw [read_eq_ok_iff (saves.names one hone).resolve, saves.files] at hread
    cases hsaved : savedAt one.2 saved with
    | none => exact absurd rfl (savedAt_eq_none_iff.mp hsaved one hone)
    | some content => rwa [hsaved] at hread
  · intro hown
    refine ⟨List.forall_mem_map.mpr fun one hone => ?_, fun place hplace => ?_⟩
    · rw [read_eq_ok_iff (saves.names one hone).resolve, saves.files, hown one hone]
      rfl
    · have hnone : savedAt place saved = none := by
        refine savedAt_eq_none_iff.mpr fun one hone heq => ?_
        exact hplace one.1 (List.mem_map_of_mem hone) (heq ▸ (saves.names one hone).resolve)
      rw [saves.files, hnone]
      rfl

/-- Two artifacts of different content are both there exactly if they are at two places. -/
theorem Saves.pair {header client : Artifact} {first second : List String}
    (saves : Saves before directory [(header, first), (client, second)] after)
    (hdiffer : header.content ≠ client.content) :
    after.Names (header.pathIn directory) first ∧ after.Names (client.pathIn directory) second ∧
      (∀ place, after.file? place =
        if place = second then some client.content.toUTF8
        else if place = first then some header.content.toUTF8
        else before.file? place) ∧
      (LeavesArtifacts before after directory [header, client] ↔ first ≠ second) := by
  refine ⟨saves.names (header, first) (by simp), saves.names (client, second) (by simp),
    fun place => ?_, ?_⟩
  · rw [saves.files, savedAt, savedAt, savedAt]
    split
    · rfl
    · split <;> rfl
  · refine saves.leavesArtifacts_iff.trans ?_
    rw [List.pairwise_pair]
    exact ⟨fun hsame heq => hdiffer (hsame heq), fun hne heq => absurd heq hne⟩

/-! ## A run that writes both artifacts -/

namespace Command

variable {schema : String} {flags : GenerateFlags} {config : Config}

/-- A run that does not print and reports success has loaded a contract and saved what is written
from it. -/
theorem saves_of_generate (hstdout : flags.stdout = none)
    (hcode : (generate disk schema flags config).code = 0) :
    ∃ contract first second, Contract.ofFile disk schema = .ok contract ∧
      Saves disk (effective flags config).directory
        [(contract.emission (effective flags config).emissionOptions, first),
          (contract.consumption (effective flags config).consumptionOptions, second)]
        (generate disk schema flags config).disk := by
  unfold generate at hcode ⊢
  split at hcode
  next => cases hcode
  next contract hcontract =>
    rw [hstdout] at hcode ⊢
    obtain ⟨places, hlength, hsaves⟩ := saves_of_saveAll hcode
    match places, hlength with
    | [first, second], _ => exact ⟨contract, first, second, hcontract, hsaves⟩

/-- A run that writes both artifacts leaves the module in its file, and the header in its own as
long as that is not the same file. For names without a slash, that is as long as the names differ.
Every other file is as it was. -/
theorem artifacts_left_iff (hstdout : flags.stdout = none)
    (hcode : (generate disk schema flags config).code = 0) :
    let after := (generate disk schema flags config).disk
    let settings := effective flags config
    ∃ contract first second, Contract.ofFile disk schema = .ok contract ∧
      let header := contract.emission settings.emissionOptions
      let client := contract.consumption settings.consumptionOptions
      after.resolve (header.pathIn settings.directory) = .ok first ∧
        after.resolve (client.pathIn settings.directory) = .ok second ∧
        (∀ place, after.file? place =
          if place = second then some client.content.toUTF8
          else if place = first then some header.content.toUTF8
          else disk.file? place) ∧
        (LeavesArtifacts disk after settings.directory (contract.artifacts settings.options) ↔
          first ≠ second) ∧
        ('/' ∉ settings.emissionOptions.outputName.toList →
          '/' ∉ settings.consumptionOptions.outputName.toList →
            (first = second ↔
              settings.emissionOptions.outputName = settings.consumptionOptions.outputName)) := by
  obtain ⟨contract, first, second, hcontract, hsaves⟩ := saves_of_generate hstdout hcode
  obtain ⟨hheader, hclient, hfiles, hleaves⟩ :=
    hsaves.pair (contract.content_ne (effective flags config).options)
  exact ⟨contract, first, second, hcontract, hheader.resolve, hclient.resolve, hfiles, hleaves,
    hheader.place_eq_iff hclient⟩

/-- A working directory with nothing in it but a schema. -/
def schemaAlone : Disk :=
  ⟨["work"], [(["work"], .directory),
    (["work", "s.json"], .file "\x7b\"endpoint\": \"/e\", \"events\": []\x7d".toUTF8)]⟩

/-- Flags that only name both artifacts. -/
def named (emission consumption : String) : GenerateFlags :=
  ⟨none, none, none, some emission, some consumption, false⟩

theorem artifacts_left_named_apart :
    ∃ contract, Contract.ofFile schemaAlone "s.json" = .ok contract ∧
      LeavesArtifacts schemaAlone
        (generate schemaAlone "s.json" (named "x.hpp" "x.ts") Config.empty).disk "."
        (contract.artifacts (effective (named "x.hpp" "x.ts") Config.empty).options) := by
  obtain ⟨contract, first, second, hcontract, -, -, -, hleaves, hnames⟩ :=
    @artifacts_left_iff schemaAlone "s.json" (named "x.hpp" "x.ts") Config.empty rfl
      (by decide +kernel)
  refine ⟨contract, hcontract, hleaves.mpr ?_⟩
  rw [Ne, hnames (by decide) (by decide)]
  decide

/-- Named alike, both are said to be generated, and the header is lost. -/
theorem header_lost_under_one_name :
    ∃ contract, Contract.ofFile schemaAlone "s.json" = .ok contract ∧
      let outcome := generate schemaAlone "s.json" (named "x" "x") Config.empty
      outcome.code = 0 ∧ outcome.stderr = "Generated ./x\nGenerated ./x\n" ∧
        ¬ LeavesArtifacts schemaAlone outcome.disk "."
          (contract.artifacts (effective (named "x" "x") Config.empty).options) := by
  have hcode : (generate schemaAlone "s.json" (named "x" "x") Config.empty).code = 0 := by
    decide +kernel
  obtain ⟨contract, first, second, hcontract, hsaves⟩ := saves_of_generate rfl hcode
  obtain ⟨hheader, hclient, -, hleaves⟩ :=
    hsaves.pair (contract.content_ne (effective (named "x" "x") Config.empty).options)
  have hplace : first = second := Except.ok.inj (hheader.resolve.symm.trans hclient.resolve)
  exact ⟨contract, hcontract, hcode, by decide +kernel, fun h => hleaves.mp h hplace⟩

end Command

end EventContract
