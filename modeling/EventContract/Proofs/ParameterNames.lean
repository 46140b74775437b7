import EventContract.Emission.Parameter
import EventContract.Proofs.IdentifierText

/-! # Parameters are told apart

The parameters of a function have names of their own, one for each field. Numbering the names that
are taken goes on no longer than there are names to avoid.
-/

namespace EventContract.Emission

variable {taken fields : List String} {base name : String}

/-! ## Candidates -/

theorem candidate_injective (base : String) : Function.Injective (candidate base) := by
  have hlonger (n : Nat) : base ++ "_" ++ toString (n + 1) ≠ base := by
    intro heq
    have hmark : "_".length = 1 := rfl
    have hlength := congrArg String.length heq
    simp only [String.length_append, hmark] at hlength
    omega
  intro m n h
  simp only [candidate] at h
  split_ifs at h with hm hn hn
  · rw [hm, hn]
  · exact absurd h.symm (hlonger n)
  · exact absurd h (hlonger m)
  · -- Behind the same front stand two numerals.
    have hnumbers : toString (m + 1) = toString (n + 1) := (String.append_right_inj _).mp h
    rw [Nat.toString_eq_repr, Nat.toString_eq_repr] at hnumbers
    exact Nat.succ.inj (Nat.repr_injective hnumbers)

/-- The first free candidate. Among one more of them than there are names taken, one is free. -/
theorem exists_freshName_eq (taken : List String) (base : String) :
    ∃ n ≤ taken.length, freshName taken base = candidate base n ∧ candidate base n ∉ taken ∧
      ∀ m < n, candidate base m ∈ taken := by
  unfold freshName
  rw [List.find?_map]
  cases hfind : (List.range (taken.length + 1)).find?
      ((fun name => decide (name ∉ taken)) ∘ candidate base) with
  | some n =>
      rw [List.find?_range_eq_some] at hfind
      obtain ⟨hfree, hbound, hearlier⟩ := hfind
      rw [List.mem_range] at hbound
      refine ⟨n, Nat.le_of_lt_succ hbound, rfl, by simpa using hfree, fun m hm => ?_⟩
      simpa using hearlier m hm
  | none =>
      -- The candidates would be all taken, and there are more of them than names taken.
      have hsubset : (List.range (taken.length + 1)).map (candidate base) ⊆ taken := by
        intro name hname
        obtain ⟨n, hn, rfl⟩ := List.mem_map.mp hname
        simpa using List.find?_eq_none.mp hfind n hn
      have hnodup : ((List.range (taken.length + 1)).map (candidate base)).Nodup :=
        List.nodup_range.map (candidate_injective base)
      have hle := (hnodup.subperm hsubset).length_le
      simp at hle

theorem freshName_not_mem (taken : List String) (base : String) : freshName taken base ∉ taken := by
  obtain ⟨n, -, heq, hfree, -⟩ := exists_freshName_eq taken base
  rwa [heq]

/-- A name that is not taken is kept. -/
theorem freshName_of_not_mem (h : base ∉ taken) : freshName taken base = base := by
  obtain ⟨n, -, heq, -, hearlier⟩ := exists_freshName_eq taken base
  have hzero : n = 0 := by
    by_contra hne
    exact h (hearlier 0 (Nat.pos_of_ne_zero hne))
  rw [heq, hzero]
  rfl

/-! ## Names of a payload -/

theorem length_parameterNamesFrom (taken fields : List String) :
    (parameterNamesFrom taken fields).length = fields.length := by
  induction fields generalizing taken with
  | nil => rfl
  | cons field rest ih => rw [parameterNamesFrom, List.length_cons, List.length_cons, ih]

theorem not_mem_of_mem_parameterNamesFrom (h : name ∈ parameterNamesFrom taken fields) :
    name ∉ taken := by
  induction fields generalizing taken with
  | nil => cases h
  | cons field rest ih =>
      rcases List.mem_cons.mp h with rfl | hrest
      · exact freshName_not_mem _ _
      · exact fun hmem => ih hrest (List.mem_cons_of_mem _ hmem)

theorem nodup_parameterNamesFrom (taken fields : List String) :
    (parameterNamesFrom taken fields).Nodup := by
  induction fields generalizing taken with
  | nil => exact List.nodup_nil
  | cons field rest ih =>
      refine List.nodup_cons.mpr ⟨fun hmem => ?_, ih _⟩
      exact not_mem_of_mem_parameterNamesFrom hmem List.mem_cons_self

theorem exists_candidate_of_mem (h : name ∈ parameterNamesFrom taken fields) :
    ∃ field ∈ fields, ∃ n, name = candidate (parameterName field) n := by
  induction fields generalizing taken with
  | nil => cases h
  | cons field rest ih =>
      rcases List.mem_cons.mp h with rfl | hrest
      · obtain ⟨n, -, heq, -⟩ := exists_freshName_eq taken (parameterName field)
        exact ⟨field, List.mem_cons_self, n, heq⟩
      · obtain ⟨other, hother, hn⟩ := ih hrest
        exact ⟨other, List.mem_cons_of_mem _ hother, hn⟩

/-- Each name is found among the names before it and those that were taken to begin with. -/
theorem getElem?_parameterNamesFrom {i : Nat} {field : String} (h : fields[i]? = some field) :
    (parameterNamesFrom taken fields)[i]? =
      some (freshName (((parameterNamesFrom taken fields).take i).reverse ++ taken)
        (parameterName field)) := by
  induction fields generalizing taken i with
  | nil => simp at h
  | cons first rest ih =>
      cases i with
      | zero =>
          rw [List.getElem?_cons_zero, Option.some.injEq] at h
          subst h
          rfl
      | succ i =>
          rw [List.getElem?_cons_succ] at h
          simp [parameterNamesFrom, ih h]

/-- A field whose name no parameter before it has keeps it. -/
theorem getElem?_parameterNames_of_free {i : Nat} {field : String} (h : fields[i]? = some field)
    (hfree : parameterName field ∉ (parameterNames fields).take i) :
    (parameterNames fields)[i]? = some (parameterName field) := by
  rw [parameterNames, getElem?_parameterNamesFrom h, List.append_nil, freshName_of_not_mem]
  rwa [List.mem_reverse]

/-! ## Their characters -/

theorem isIdentifier_append_mark {a : String} (h : Name.isIdentifier a = true) :
    Name.isIdentifier (a ++ "_") = true :=
  Name.isIdentifier_append h
    (Name.isIdentifierChar_of_mem (show Name.isIdentifier "_" = true by decide))

/-- What the characters of a field's name come to in an identifier, be it reserved or not. -/
def spelling (field : String) : String := String.ofList (identifierChars field.toList)

theorem parameterName_eq (field : String) : parameterName field =
    if spelling field ∈ reservedWords then spelling field ++ "_" else spelling field := rfl

theorem isIdentifier_spelling (field : String) : Name.isIdentifier (spelling field) = true := by
  rw [Name.isIdentifier, spelling, String.toList_ofList]
  apply Name.isIdentifierChars_guardFront
  rw [List.all_map, List.all_eq_true]
  intro c _
  rw [Function.comp_apply]
  split
  next hc => exact hc
  next => decide

theorem isIdentifier_parameterName (field : String) :
    Name.isIdentifier (parameterName field) = true := by
  rw [parameterName_eq]
  split
  · exact isIdentifier_append_mark (isIdentifier_spelling field)
  · exact isIdentifier_spelling field

theorem isIdentifier_candidate (hbase : Name.isIdentifier base = true) (n : Nat) :
    Name.isIdentifier (candidate base n) = true := by
  unfold candidate
  split
  · exact hbase
  · refine Name.isIdentifier_append (isIdentifier_append_mark hbase) fun c hc => ?_
    have hdigit := Text.isDigit_of_mem_toString hc
    simp [Name.isIdentifierChar, Name.isAlphanumeric, Char.isAlphanum, hdigit]

theorem isIdentifier_of_mem_parameterNamesFrom (h : name ∈ parameterNamesFrom taken fields) :
    Name.isIdentifier name = true := by
  obtain ⟨field, -, n, rfl⟩ := exists_candidate_of_mem h
  exact isIdentifier_candidate (isIdentifier_parameterName field) n

/-! ## Words that they are not -/

def endsInLetter (word : String) : Bool := word.toList.getLast?.any Char.isAlpha

theorem endsInLetter_append_mark (a : String) : endsInLetter (a ++ "_") = false := by
  simp [endsInLetter, show '_'.isAlpha = false by decide]

theorem endsInLetter_append_numeral (a : String) (n : Nat) :
    endsInLetter (a ++ toString n) = false := by
  have hdigits : (toString n).toList = Nat.toDigits 10 n := by
    rw [Nat.toString_eq_repr, Nat.toList_repr]
  rw [endsInLetter, String.toList_append, hdigits,
    List.getLast?_append_of_ne_nil _ Nat.toDigits_ne_nil, Option.any_eq_false]
  intro c hc
  have hdigit := Nat.isDigit_of_mem_toDigits (by decide) (by decide) (List.mem_of_getLast? hc)
  exact Name.isAlpha_eq_false_of_isDigit hdigit

theorem endsInLetter_of_mem_reservedWords :
    ∀ word ∈ reservedWords, endsInLetter word = true := by
  decide +kernel

/-- A candidate that ends in a letter is the name of its field as it is spelled: neither marked as a
reserved word nor numbered. -/
theorem eq_spelling_of_endsInLetter {field : String} {n : Nat}
    (h : endsInLetter (candidate (parameterName field) n) = true) :
    candidate (parameterName field) n = spelling field ∧ spelling field ∉ reservedWords := by
  rw [candidate] at h ⊢
  split at h
  next hn =>
    rw [parameterName_eq] at h ⊢
    split at h
    next =>
      rw [endsInLetter_append_mark] at h
      cases h
    next hfree =>
      rw [if_pos hn, if_neg hfree]
      exact ⟨rfl, hfree⟩
  next =>
    rw [endsInLetter_append_numeral] at h
    cases h

theorem not_mem_reservedWords_of_mem (h : name ∈ parameterNamesFrom taken fields) :
    name ∉ reservedWords := by
  intro hreserved
  have hletter := endsInLetter_of_mem_reservedWords name hreserved
  obtain ⟨field, -, n, rfl⟩ := exists_candidate_of_mem h
  obtain ⟨heq, hfree⟩ := eq_spelling_of_endsInLetter hletter
  exact hfree (heq ▸ hreserved)

end EventContract.Emission
