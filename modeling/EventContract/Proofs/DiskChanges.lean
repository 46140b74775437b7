import EventContract.Disk.Basic
import EventContract.Proofs.ExceptLaws
import Mathlib

/-! # What changes on a disk

Making directories changes no file, and writing a file changes no other one. Nothing is ever taken
away, so a path that leads somewhere goes on leading there.
-/

namespace EventContract.Disk

variable {disk before after later : Disk} {start next place : List String} {path : String}
  {content : ByteArray}

/-! ## One place -/

/-- The content of the file at a place. -/
def file? (disk : Disk) (place : List String) : Option ByteArray :=
  match disk.entry? place with
  | some (.file content) => some content
  | _ => none

theorem entry?_put (hroot : place ≠ []) (entry : Entry) (other : List String) :
    Disk.entry? (disk.put place entry) other =
      if other = place then some entry else disk.entry? other := by
  cases other with
  | nil => rw [if_neg (Ne.symm hroot)]; rfl
  | cons name names =>
      rw [put, entry?, entry?, List.find?_append, List.find?_filter, List.find?_singleton]
      · by_cases heq : name :: names = place
        · have hgone : disk.entries.find? (fun other =>
              decide ((other.1 != place) = true ∧ (other.1 == name :: names) = true)) = none := by
            rw [List.find?_eq_none]
            intro other _
            simp [heq]
          rw [hgone, if_pos heq]
          simp [heq]
        · have hsame : (fun other : List String × Entry =>
              decide ((other.1 != place) = true ∧ (other.1 == name :: names) = true)) =
                fun other => other.1 == name :: names := by
            funext other
            by_cases hother : other.1 = name :: names <;> simp [hother, heq]
          rw [hsame, if_neg heq]
          simp [Ne.symm heq]
      all_goals simp

theorem file?_put_directory (hroot : place ≠ []) (hfree : disk.entry? place = none)
    (other : List String) : (disk.put place .directory).file? other = disk.file? other := by
  rw [file?, file?, entry?_put hroot]
  by_cases heq : other = place
  · rw [if_pos heq, heq, hfree]
  · rw [if_neg heq]

theorem file?_put_file (hroot : place ≠ []) (content : ByteArray) (other : List String) :
    (disk.put place (.file content)).file? other =
      if other = place then some content else disk.file? other := by
  rw [file?, entry?_put hroot]
  by_cases heq : other = place
  · rw [if_pos heq, if_pos heq]
  · rw [if_neg heq, if_neg heq, file?]

/-- A path is read where it leads to. -/
theorem read_eq_ok_iff (hresolve : disk.resolve path = .ok place) :
    disk.read path = .ok content ↔ disk.file? place = some content := by
  rw [read, hresolve, bind_eq_ok_iff, file?]
  simp only [Except.ok.injEq, exists_eq_left']
  split <;> simp_all

/-! ## One step after the other -/

/-- Where one step leads. -/
def advance (disk : Disk) (start : List String) (step : Step) : Except FileError (List String) :=
  if !disk.hasDirectory start then .error .notDirectory
  else match step with
    | .slash | .stay => .ok start
    | .up => .ok start.dropLast
    | .down name =>
      if nameLimit < name.utf8ByteSize then .error .nameTooLong
      else if (disk.entry? (start ++ [name])).isNone then .error .notFound
      else .ok (start ++ [name])

theorem walk_cons (disk : Disk) (start : List String) (step : Step) (rest : List Step) :
    disk.walk start (step :: rest) =
      disk.advance start step >>= fun next => disk.walk next rest := by
  rw [walk.eq_def, advance.eq_def]
  dsimp only
  cases hdirectory : disk.hasDirectory start with
  | false => rfl
  | true =>
      cases step with
      | down name =>
          simp only [Bool.not_true, Bool.false_eq_true, if_false]
          split
          · rfl
          · split <;> rfl
      | slash => rfl
      | stay => rfl
      | up => rfl

theorem walk_append (disk : Disk) (start : List String) (front back : List Step) :
    disk.walk start (front ++ back) =
      disk.walk start front >>= fun next => disk.walk next back := by
  induction front generalizing start with
  | nil => rfl
  | cons step rest ih =>
      rw [List.cons_append, walk_cons, walk_cons, bind_assoc]
      congr 1
      funext next
      exact ih next

theorem advance_down_eq_ok_iff {name : String} :
    disk.advance start (.down name) = .ok next ↔
      disk.hasDirectory start ∧ name.utf8ByteSize ≤ nameLimit ∧
        (disk.entry? (start ++ [name])).isSome ∧ next = start ++ [name] := by
  rw [advance]
  cases hdirectory : disk.hasDirectory start with
  | false => simp
  | true =>
      by_cases hlong : nameLimit < name.utf8ByteSize
      · simp [hlong]
      · cases hentry : disk.entry? (start ++ [name]) with
        | none => simp [hlong]
        | some entry => simp [hlong, Nat.le_of_not_lt hlong, eq_comm]

theorem walk_down_eq_ok_iff {front : List Step} {name : String} :
    disk.walk start (front ++ [.down name]) = .ok place ↔
      ∃ above, disk.walk start front = .ok above ∧ disk.advance above (.down name) = .ok place := by
  rw [walk_append, bind_eq_ok_iff]
  refine exists_congr fun above => and_congr_right fun _ => ?_
  rw [walk_cons, bind_eq_ok_iff]
  constructor
  · rintro ⟨next, hadvance, hwalk⟩
    cases hwalk
    exact hadvance
  · intro hadvance
    exact ⟨place, hadvance, rfl⟩

/-! ## Nothing is taken away -/

/-- What stands somewhere stays, and directories stay directories. -/
structure Grows (before after : Disk) : Prop where
  workingDirectory : after.workingDirectory = before.workingDirectory
  taken : ∀ place, (before.entry? place).isSome → (after.entry? place).isSome
  directory : ∀ place, before.hasDirectory place → after.hasDirectory place

namespace Grows

theorem refl (disk : Disk) : Grows disk disk :=
  ⟨rfl, fun _ => id, fun _ => id⟩

theorem trans (first : Grows before after) (second : Grows after later) : Grows before later where
  workingDirectory := second.workingDirectory.trans first.workingDirectory
  taken place h := second.taken place (first.taken place h)
  directory place h := second.directory place (first.directory place h)

/-- Something may come to stand where there is no directory. -/
theorem put (hroot : place ≠ []) (hfree : disk.hasDirectory place = false) (entry : Entry) :
    Grows disk (disk.put place entry) where
  workingDirectory := rfl
  taken other h := by
    rw [entry?_put hroot]
    split
    · rfl
    · exact h
  directory other h := by
    have hne : other ≠ place := by
      rintro rfl
      rw [hfree] at h
      cases h
    rwa [hasDirectory, entry?_put hroot, if_neg hne]

theorem advance (grows : Grows before after) {step : Step}
    (h : before.advance start step = .ok next) : after.advance start step = .ok next := by
  cases step with
  | down name =>
      obtain ⟨hdirectory, hshort, htaken, rfl⟩ := advance_down_eq_ok_iff.mp h
      exact advance_down_eq_ok_iff.mpr
        ⟨grows.directory _ hdirectory, hshort, grows.taken _ htaken, rfl⟩
  | _ =>
      cases hdirectory : before.hasDirectory start with
      | false => simp [Disk.advance, hdirectory] at h
      | true => simpa [Disk.advance, hdirectory, grows.directory start hdirectory] using h

/-- A walk that succeeds takes the same way later. -/
theorem walk (grows : Grows before after) {steps : List Step}
    (h : before.walk start steps = .ok place) : after.walk start steps = .ok place := by
  induction steps generalizing start with
  | nil => exact h
  | cons step rest ih =>
      rw [walk_cons, bind_eq_ok_iff] at h ⊢
      obtain ⟨next, hadvance, hrest⟩ := h
      exact ⟨next, grows.advance hadvance, ih hrest⟩

theorem origin (grows : Grows before after) (path : String) :
    after.origin path = before.origin path := by
  rw [Disk.origin, Disk.origin, grows.workingDirectory]

theorem resolve (grows : Grows before after) (h : before.resolve path = .ok place) :
    after.resolve path = .ok place := by
  obtain ⟨⟨⟩, hpath, hwalk⟩ := bind_eq_ok_iff.mp h
  rw [← grows.origin] at hwalk
  exact bind_eq_ok_iff.mpr ⟨(), hpath, grows.walk hwalk⟩

end Grows

/-! ## Making directories -/

/-- Directories have come in, and nothing else has happened. -/
structure AddsDirectories (before after : Disk) : Prop where
  grows : Grows before after
  files : ∀ place, after.file? place = before.file? place

namespace AddsDirectories

theorem refl (disk : Disk) : AddsDirectories disk disk :=
  ⟨.refl disk, fun _ => rfl⟩

theorem trans (first : AddsDirectories before after) (second : AddsDirectories after later) :
    AddsDirectories before later :=
  ⟨first.grows.trans second.grows, fun place => (second.files place).trans (first.files place)⟩

theorem put (hroot : place ≠ []) (hfree : disk.entry? place = none) :
    AddsDirectories disk (disk.put place .directory) :=
  ⟨.put hroot (by rw [hasDirectory, hfree]) _, file?_put_directory hroot hfree⟩

end AddsDirectories

theorem addsDirectories_makeDirectory (h : disk.makeDirectory path = .ok after) :
    AddsDirectories disk after := by
  obtain ⟨-, -, h⟩ := bind_eq_ok_iff.mp h
  split at h
  next => cases h
  next before last _ _ =>
    obtain ⟨above, -, h⟩ := bind_eq_ok_iff.mp h
    split at h
    next => cases h
    next =>
      cases last with
      | down name =>
          dsimp only at h
          split at h
          next => cases h
          next =>
            split at h
            next => cases h
            next hfree =>
              cases h
              exact .put (by simp) (by simpa using hfree)
      | _ => cases h

theorem addsDirectories_ensureDirectory (h : disk.ensureDirectory path = .ok after) :
    AddsDirectories disk after := by
  unfold ensureDirectory at h
  split at h
  next hmade =>
    cases h
    exact addsDirectories_makeDirectory hmade
  next =>
    split at h
    next =>
      cases h
      exact .refl disk
    next => cases h

/-- Also when it is refused in the end: the directories that could be made stay. -/
theorem addsDirectories_makeDirectories (fuel : Nat) (disk : Disk) (path : String) :
    AddsDirectories disk (makeDirectories fuel disk path).2 := by
  fun_induction makeDirectories fuel disk path with
  | case3 _ _ _ _ _ hmade => exact addsDirectories_ensureDirectory hmade
  | case5 _ _ _ _ _ _ _ _ _ habove ih | case7 _ _ _ _ _ _ _ _ habove _ _ ih =>
      rw [habove] at ih
      exact ih
  | case6 _ _ _ _ _ _ _ _ habove _ hmade ih =>
      rw [habove] at ih
      exact ih.trans (addsDirectories_ensureDirectory hmade)
  | _ => exact .refl _

theorem addsDirectories_createDirectories (disk : Disk) (path : String) :
    AddsDirectories disk (disk.createDirectories path).2 :=
  addsDirectories_makeDirectories _ disk path

/-! ## Writing a file -/

/-- A path leads to a place and ends in a name, so that a file may be written by it. -/
structure Names (disk : Disk) (path : String) (place : List String) : Prop where
  resolve : disk.resolve path = .ok place
  named : ∃ front name, steps path = front ++ [.down name]

theorem Names.grow (names : before.Names path place) (grows : Grows before after) :
    after.Names path place :=
  ⟨grows.resolve names.resolve, names.named⟩

/-- A file has been written by its path, and at most directories have come in besides. -/
structure Writes (before : Disk) (path : String) (content : ByteArray) (place : List String)
    (after : Disk) : Prop where
  grows : Grows before after
  names : after.Names path place
  files : ∀ other, after.file? other = if other = place then some content else before.file? other

theorem AddsDirectories.writes (added : AddsDirectories before after)
    (writes : Writes after path content place later) : Writes before path content place later where
  grows := added.grows.trans writes.grows
  names := writes.names
  files other := by rw [writes.files, added.files]

/-- A path without a slash at its end goes by its steps to the last one. -/
theorem steps_of_lastStep? {front : List Step} {last : Step}
    (h : lastStep? path = some (front, last, false)) : steps path = front ++ [last] := by
  unfold lastStep? at h
  dsimp only at h
  cases hreversed : (steps path).reverse with
  | nil => simp [hreversed] at h
  | cons step rest =>
      rw [hreversed] at h
      by_cases hslash : step = .slash
      · split at h <;> simp [hslash] at h
      · rw [List.dropWhile_cons_of_neg (by simpa using hslash)] at h
        simp only [Option.some.injEq, Prod.mk.injEq] at h
        obtain ⟨rfl, rfl, -⟩ := h
        rw [← List.reverse_cons, ← hreversed, List.reverse_reverse]

/-- A file is written into a directory, under a name that no directory has there. -/
theorem write_eq_ok (h : disk.write path content = .ok after) :
    checkPath path = .ok () ∧ ∃ front name above,
      lastStep? path = some (front, .down name, false) ∧
        disk.walk (disk.origin path) front = .ok above ∧ disk.hasDirectory above ∧
          name.utf8ByteSize ≤ nameLimit ∧ disk.hasDirectory (above ++ [name]) = false ∧
            after = disk.put (above ++ [name]) (.file content) := by
  obtain ⟨hpath, h⟩ := bind_unit_eq_ok_iff.mp h
  refine ⟨hpath, ?_⟩
  split at h
  next => cases h
  next front last slashed hlast =>
    obtain ⟨above, hwalk, h⟩ := bind_eq_ok_iff.mp h
    split at h
    next => cases h
    next hdirectory =>
      cases last with
      | down name =>
          dsimp only at h
          split at h
          next => cases h
          next hslashed =>
            split at h
            next => cases h
            next hshort =>
              split at h
              next => cases h
              next hentry =>
                cases h
                rw [Bool.eq_false_iff.mpr hslashed] at hlast
                have hfree : disk.hasDirectory (above ++ [name]) = false := by
                  unfold hasDirectory
                  split
                  · exact absurd ‹_› hentry
                  · rfl
                exact ⟨front, name, above, hlast, hwalk, by simpa using hdirectory,
                  Nat.le_of_not_lt hshort, hfree, rfl⟩
      | _ => cases h

theorem writes_of_write (h : disk.write path content = .ok after) :
    ∃ place, Writes disk path content place after := by
  obtain ⟨hpath, front, name, above, hlast, hwalk, hdirectory, hshort, hfree, rfl⟩ := write_eq_ok h
  have hroot : above ++ [name] ≠ [] := by simp
  have hsteps := steps_of_lastStep? hlast
  have grows : Grows disk (disk.put (above ++ [name]) (.file content)) := .put hroot hfree _
  refine ⟨above ++ [name], grows, ⟨?_, front, name, hsteps⟩, file?_put_file hroot content⟩
  rw [resolve, bind_unit_eq_ok_iff, hsteps, walk_down_eq_ok_iff, grows.origin]
  refine ⟨hpath, above, grows.walk hwalk, advance_down_eq_ok_iff.mpr ?_⟩
  refine ⟨grows.directory above hdirectory, hshort, ?_, rfl⟩
  rw [entry?_put hroot, if_pos rfl]
  rfl

/-! ## Files of one directory -/

namespace Path

theorem parts_ne_nil (cs : List Char) : parts cs ≠ [] := by
  cases cs with
  | nil => simp [parts]
  | cons c rest =>
      rw [parts]
      split
      · simp
      · split <;> simp

theorem parts_append_slash (front back : List Char) :
    parts (front ++ '/' :: back) = parts front ++ parts back := by
  induction front with
  | nil => simp [parts]
  | cons c rest ih =>
      rw [List.cons_append, parts, parts, ih]
      split
      · rfl
      · cases hparts : parts rest with
        | nil => exact absurd hparts (parts_ne_nil rest)
        | cons => rfl

theorem parts_of_slash_not_mem {cs : List Char} (h : '/' ∉ cs) : parts cs = [cs] := by
  induction cs with
  | nil => rfl
  | cons c rest ih =>
      simp only [List.mem_cons, not_or] at h
      rw [parts, if_neg (Ne.symm h.1), ih h.2]

theorem isAbsolute_append {front : String} (hfront : front ≠ "") (back : String) :
    isAbsolute (front ++ back) = isAbsolute front := by
  rw [isAbsolute, isAbsolute, String.toList_append, List.head?_append_of_ne_nil]
  simpa using hfront

/-- Names without a slash are looked up in one place, which is the directory that they are joined
to. -/
theorem exists_steps_join (directory : String) :
    ∃ front rooted, ∀ name : String, '/' ∉ name.toList →
      steps (join directory name) = front ++ [Step.ofPart name.toList] ∧
        isAbsolute (join directory name) = rooted := by
  have hrelative {name : String} (h : '/' ∉ name.toList) : isAbsolute name = false := by
    rw [isAbsolute, beq_eq_false_iff_ne]
    exact fun hhead => h (List.mem_of_mem_head? hhead)
  have hsteps {base : List Char} {name path : String} (h : '/' ∉ name.toList)
      (hpath : path.toList = base ++ '/' :: name.toList) :
      steps path = (parts base).map Step.ofPart ++ [Step.ofPart name.toList] := by
    rw [steps, hpath, parts_append_slash, parts_of_slash_not_mem h, List.map_append]
    rfl
  by_cases hempty : directory = ""
  · refine ⟨[], false, fun name h => ?_⟩
    have hjoin : join directory name = name := by simp [join, hrelative h, hempty]
    rw [hjoin, steps, parts_of_slash_not_mem h]
    exact ⟨rfl, hrelative h⟩
  · by_cases hslash : directory.toList.getLast? = some '/'
    · obtain ⟨base, hbase⟩ := List.getLast?_eq_some_iff.mp hslash
      refine ⟨(parts base).map Step.ofPart, isAbsolute directory, fun name h => ?_⟩
      have hjoin : join directory name = directory ++ name := by
        simp [join, hrelative h, hslash]
      rw [hjoin]
      exact ⟨hsteps h (by simp [hbase]), isAbsolute_append hempty name⟩
    · refine ⟨steps directory, isAbsolute directory, fun name h => ?_⟩
      have hjoin : join directory name = directory ++ ("/" ++ name) := by
        simp [join, hrelative h, hslash, hempty, String.append_assoc]
      rw [hjoin]
      exact ⟨hsteps h (by simp), isAbsolute_append hempty _⟩

end Path

theorem Step.eq_of_ofPart {part : List Char} {name : String} (h : ofPart part = .down name) :
    name = String.ofList part := by
  unfold ofPart at h
  split at h
  next => cases h
  next =>
    split at h
    next => cases h
    next =>
      split at h
      next => cases h
      next => exact (Step.down.inj h).symm

/-- In one directory, names without a slash are names of one file only if they are equal. -/
theorem Names.place_eq_iff {directory first second : String} {another : List String}
    (hfirst : disk.Names (Path.join directory first) place)
    (hsecond : disk.Names (Path.join directory second) another)
    (hplain : '/' ∉ first.toList) (hplain' : '/' ∉ second.toList) :
    place = another ↔ first = second := by
  obtain ⟨front, rooted, hjoin⟩ := Path.exists_steps_join directory
  -- The directory is one and the same for every name.
  have hplace {name : String} {place : List String} (hplain : '/' ∉ name.toList)
      (names : disk.Names (Path.join directory name) place) :
      ∃ above, disk.walk (if rooted then [] else disk.workingDirectory) front = .ok above ∧
        place = above ++ [name] := by
    obtain ⟨hsteps, hrooted⟩ := hjoin name hplain
    obtain ⟨front', last, hnamed⟩ := names.named
    obtain ⟨rfl, hlast⟩ := List.append_singleton_inj.mp (hsteps.symm.trans hnamed)
    cases Step.eq_of_ofPart hlast
    have hresolve := names.resolve
    rw [Disk.resolve, bind_unit_eq_ok_iff, hnamed, walk_down_eq_ok_iff, origin, hrooted,
      String.ofList_toList] at hresolve
    obtain ⟨-, above, hwalk, hadvance⟩ := hresolve
    exact ⟨above, hwalk, (advance_down_eq_ok_iff.mp hadvance).2.2.2⟩
  obtain ⟨above, hwalk, rfl⟩ := hplace hplain hfirst
  obtain ⟨above', hwalk', rfl⟩ := hplace hplain' hsecond
  cases hwalk.symm.trans hwalk'
  simp

end EventContract.Disk
