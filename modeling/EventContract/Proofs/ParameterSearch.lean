import EventContract.Proofs.ParameterNames

/-! # The search for a parameter's name

A name is searched for among its candidates one by one, for as long as they are taken, with no limit
to the search. It ends for every field, with the name that `freshName` picks among as many
candidates as it needs to look at.
-/

namespace EventContract.Emission

variable {taken fields names : List String} {base name : String}

/-! ## One search -/

/-- The search from the `n`-th candidate on ends with a name: a candidate that is free ends it, and
one that is taken sends it on to the next. -/
inductive Search (taken : List String) (base : String) : Nat → String → Prop
  | free {n : Nat} (hfree : candidate base n ∉ taken) : Search taken base n (candidate base n)
  | next {n : Nat} {name : String} (htaken : candidate base n ∈ taken)
      (hnext : Search taken base (n + 1) name) : Search taken base n name

theorem Search.unique {n : Nat} {other : String} (h : Search taken base n name)
    (hother : Search taken base n other) : name = other := by
  induction h with
  | free hfree =>
      cases hother with
      | free => rfl
      | next htaken => exact absurd htaken hfree
  | next htaken _ ih =>
      cases hother with
      | free hfree => exact absurd htaken hfree
      | next _ hnext => exact ih hnext

theorem Search.of_free {m n : Nat} (hle : m ≤ n) (hfree : candidate base n ∉ taken)
    (htaken : ∀ k < n, candidate base k ∈ taken) : Search taken base m (candidate base n) := by
  induction hle using Nat.decreasingInduction with
  | of_succ k hk ih => exact .next (htaken k hk) ih
  | self => exact .free hfree

/-- Every search ends, and with one name only. -/
theorem search_iff : Search taken base 0 name ↔ name = freshName taken base := by
  obtain ⟨n, -, heq, hfree, htaken⟩ := exists_freshName_eq taken base
  have hsearch : Search taken base 0 (freshName taken base) := by
    rw [heq]
    exact .of_free n.zero_le hfree htaken
  exact ⟨fun h => h.unique hsearch, fun h => h ▸ hsearch⟩

/-! ## One search after the other -/

/-- The searches for the fields of a payload, each with the names found before it taken. -/
inductive Pass : List String → List String → List String → Prop
  | nil {taken : List String} : Pass taken [] []
  | cons {taken rest names : List String} {field name : String}
      (hname : Search taken (parameterName field) 0 name)
      (hrest : Pass (name :: taken) rest names) : Pass taken (field :: rest) (name :: names)

theorem pass_iff : Pass taken fields names ↔ names = parameterNamesFrom taken fields := by
  induction fields generalizing taken names with
  | nil =>
      constructor
      · rintro ⟨⟩
        rfl
      · rintro rfl
        exact .nil
  | cons field rest ih =>
      constructor
      · rintro (_ | ⟨hname, hrest⟩)
        obtain rfl := search_iff.mp hname
        rw [ih.mp hrest, parameterNamesFrom]
      · rintro rfl
        exact .cons (search_iff.mpr rfl) (ih.mpr rfl)

/-- What the names of the parameters have to be for the fields of a payload. -/
structure NamesFields (fields names : List String) : Prop where
  length : names.length = fields.length
  distinct : names.Nodup
  identifier : ∀ name ∈ names, Name.isIdentifier name = true
  unreserved : ∀ name ∈ names, name ∉ reservedWords
  /-- A field has a name of its own where no parameter before it has that name. -/
  plain : ∀ i field, fields[i]? = some field → parameterName field ∉ names.take i →
    names[i]? = some (parameterName field)
  /-- Otherwise it has the first number that is free, which is no greater than its place. -/
  numbered : ∀ i field, fields[i]? = some field → ∃ n ≤ i,
    names[i]? = some (candidate (parameterName field) n) ∧
      ∀ m < n, candidate (parameterName field) m ∈ names.take i

theorem namesFields_parameterNames (fields : List String) :
    NamesFields fields (parameterNames fields) where
  length := length_parameterNamesFrom [] fields
  distinct := nodup_parameterNamesFrom [] fields
  identifier _ hname := isIdentifier_of_mem_parameterNamesFrom hname
  unreserved _ hname := not_mem_reservedWords_of_mem hname
  plain _ _ hfield hfree := getElem?_parameterNames_of_free hfield hfree
  numbered i field hfield := by
    obtain ⟨n, hbound, heq, -, htaken⟩ :=
      exists_freshName_eq ((parameterNames fields).take i).reverse (parameterName field)
    rw [List.length_reverse] at hbound
    refine ⟨n, hbound.trans (List.length_take_le _ _), ?_, fun m hm => ?_⟩
    · rw [parameterNames, getElem?_parameterNamesFrom hfield, List.append_nil, ← heq]
      rfl
    · exact List.mem_reverse.mp (htaken m hm)

/-- The searches for all fields of a payload end, with one list of names only, and these are names
as they have to be. -/
theorem parameters_searched (fields : List String) :
    (∀ names, Pass [] fields names ↔ names = parameterNames fields) ∧
      NamesFields fields (parameterNames fields) :=
  ⟨fun _ => pass_iff, namesFields_parameterNames fields⟩

/-- Numbered names are kept apart from names that fields have of themselves. -/
example : parameterNames ["z-index", "z_index", "z_index_2", "class", "class_"] =
    ["z_index", "z_index_2", "z_index_2_2", "class_", "class__2"] := by
  decide +kernel

end EventContract.Emission
