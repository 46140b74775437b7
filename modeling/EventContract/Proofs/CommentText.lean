import EventContract.Proofs.TextLines

/-! # Where a block comment ends

A block comment ends at the first closing mark behind its opening, whichever text the mark comes
from. A text without one may stand in a comment, and putting such texts together with other
characters between them makes none.
-/

namespace EventContract.Text

variable {cs ds behind : List Char} {c : Char} {line separator text : String}

/-- The text has no closing mark of a block comment. -/
def Unclosed (cs : List Char) : Prop := ¬ ['*', '/'] <:+: cs

instance : DecidablePred Unclosed :=
  fun cs => inferInstanceAs (Decidable (¬ ['*', '/'] <:+: cs))

/-- What stands before the first closing mark and what stands behind it. -/
def untilClosing : List Char → Option (List Char × List Char)
  | [] => none
  | '*' :: '/' :: rest => some ([], rest)
  | c :: rest => (untilClosing rest).map fun (inside, behind) => (c :: inside, behind)

/-! ## Closing marks -/

theorem unclosed_nil : Unclosed [] := by
  simp [Unclosed]

theorem unclosed_cons :
    Unclosed (c :: cs) ↔ ¬ (c = '*' ∧ cs.head? = some '/') ∧ Unclosed cs := by
  have hfront : ['*', '/'] <+: c :: cs ↔ c = '*' ∧ cs.head? = some '/' := by
    cases cs with
    | nil => simp
    | cons d ds => simp [eq_comm]
  rw [Unclosed, List.infix_cons_iff, not_or, hfront, Unclosed]

/-- Two texts make no closing mark together unless it falls between them. -/
theorem unclosed_append (h : cs.getLast? ≠ some '*' ∨ ds.head? ≠ some '/') :
    Unclosed (cs ++ ds) ↔ Unclosed cs ∧ Unclosed ds := by
  induction cs with
  | nil => simp [unclosed_nil]
  | cons c cs ih =>
      cases cs with
      | nil =>
          have hsplit : ¬ (c = '*' ∧ ds.head? = some '/') := by
            simpa [imp_iff_not_or] using h
          simp [unclosed_cons, unclosed_nil, hsplit]
      | cons d cs =>
          rw [List.getLast?_cons_cons] at h
          have hhead : (d :: cs ++ ds).head? = (d :: cs).head? := rfl
          rw [List.cons_append, unclosed_cons, hhead, ih h, ← and_assoc, ← unclosed_cons]

theorem Unclosed.of_part (h : Unclosed cs) (hpart : ds <:+: cs) : Unclosed ds :=
  fun hmark => h (hmark.trans hpart)

theorem unclosed_of_not_mem (h : '*' ∉ cs) : Unclosed cs :=
  fun hmark => h (hmark.subset List.mem_cons_self)

theorem untilClosing_cons (h : ¬ (c = '*' ∧ cs.head? = some '/')) :
    untilClosing (c :: cs) =
      (untilClosing cs).map fun (inside, behind) => (c :: inside, behind) := by
  rw [untilClosing.eq_def]
  split
  next heq => cases heq
  next heq =>
    cases heq
    exact absurd ⟨rfl, rfl⟩ h
  next heq =>
    cases heq
    rfl

/-- A closing mark behind a text is the first one exactly if the text has none. -/
theorem untilClosing_eq_iff :
    untilClosing (cs ++ '*' :: '/' :: behind) = some (cs, behind) ↔ Unclosed cs := by
  induction cs with
  | nil => exact ⟨fun _ => unclosed_nil, fun _ => rfl⟩
  | cons c cs ih =>
      rw [unclosed_cons, ← ih, List.cons_append]
      by_cases hmark : c = '*' ∧ cs.head? = some '/'
      · obtain ⟨rfl, hhead⟩ := hmark
        obtain ⟨rest, rfl⟩ := List.head?_eq_some_iff.mp hhead
        simp [untilClosing]
      · have hhead : (cs ++ '*' :: '/' :: behind).head? = some '/' ↔ cs.head? = some '/' := by
          cases cs with
          | nil => simp
          | cons => simp
        rw [untilClosing_cons (by rwa [hhead]), Option.map_eq_some_iff]
        simp [hmark]

/-! ## Breaking marks up -/

theorem head?_breakClosing (cs : List Char) : (breakClosing cs).head? = cs.head? := by
  fun_cases breakClosing cs with
  | case1 => rfl
  | case2 => rfl
  | case3 => rfl

theorem unclosed_breakClosing (cs : List Char) : Unclosed (breakClosing cs) := by
  fun_induction breakClosing cs with
  | case1 rest ih =>
      rw [unclosed_cons, unclosed_cons, unclosed_cons]
      simp [ih]
  | case2 c rest hother ih =>
      rw [unclosed_cons, head?_breakClosing]
      refine ⟨?_, ih⟩
      rintro ⟨rfl, hhead⟩
      cases rest with
      | nil => cases hhead
      | cons d rest =>
          cases hhead
          exact hother rest rfl rfl
  | case3 => exact unclosed_nil

/-! ## Lines of a comment -/

theorem isPrefix_of_lines_eq_cons {line : List Char} {more : List (List Char)}
    (h : lines cs = line :: more) : line <+: cs := by
  fun_induction lines cs generalizing line more with
  | case1 => cases h
  | case2 rest ih =>
      cases h
      exact List.nil_prefix
  | case3 c rest hfeed hnone ih =>
      cases h
      exact List.cons_prefix_cons.mpr ⟨rfl, List.nil_prefix⟩
  | case4 c rest hfeed first others hlines ih =>
      cases h
      exact List.cons_prefix_cons.mpr ⟨rfl, ih hlines⟩

theorem isInfix_of_mem_lines {line : List Char} (h : line ∈ lines cs) : line <:+: cs := by
  fun_induction lines cs with
  | case1 => cases h
  | case2 rest ih =>
      rcases List.mem_cons.mp h with rfl | hrest
      · exact List.nil_infix
      · exact (ih hrest).trans (List.suffix_cons _ _).isInfix
  | case3 c rest hfeed hnone ih =>
      rw [List.mem_singleton.mp h]
      exact (List.cons_prefix_cons.mpr ⟨rfl, List.nil_prefix⟩).isInfix
  | case4 c rest hfeed first others hlines ih =>
      rw [hlines] at ih
      rcases List.mem_cons.mp h with rfl | hothers
      · exact (List.cons_prefix_cons.mpr ⟨rfl, isPrefix_of_lines_eq_cons hlines⟩).isInfix
      · exact (ih (List.mem_cons_of_mem _ hothers)).trans (List.suffix_cons _ _).isInfix

theorem unclosed_trimmedEnd (h : Unclosed text.toList) : Unclosed (trimmedEnd text).toList := by
  rw [trimmedEnd, String.toList_ofList]
  exact h.of_part (isPrefix_trimEnd _).isInfix

theorem unclosed_of_mem_commentLines (h : line ∈ commentLines text) : Unclosed line.toList := by
  obtain ⟨cs, hcs, rfl⟩ := exists_of_mem_commentLines h
  rw [String.toList_ofList]
  exact (unclosed_breakClosing _).of_part
    ((isPrefix_trimEnd cs).isInfix.trans (isInfix_of_mem_lines hcs))

theorem unclosed_unlines_iff {ls : List String} :
    Unclosed (unlines ls).toList ↔ ∀ line ∈ ls, Unclosed line.toList := by
  induction ls with
  | nil => simp [unlines, unclosed_nil]
  | cons line more ih =>
      rw [toList_unlines_cons, unclosed_append (.inr (by simp)), unclosed_cons, ih,
        List.forall_mem_cons]
      simp

theorem unclosed_joined {texts : List String} (h : ∀ text ∈ texts, Unclosed text.toList) :
    Unclosed (joined " " texts).toList := by
  refine joined_induction (motive := fun text => Unclosed text.toList) (by decide) ?_ h
  intro a b ha hb
  have hspaced : Unclosed (a.toList ++ " ".toList) :=
    (unclosed_append (.inr (by decide))).mpr ⟨ha, by decide⟩
  rw [String.toList_append, String.toList_append, unclosed_append (.inl (by simp))]
  exact ⟨hspaced, hb⟩

end EventContract.Text
