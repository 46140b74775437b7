import EventContract.Text.Comment
import Mathlib.Data.List.Infix
import Mathlib.Tactic.Common

/-! # Lines of written texts

A text that is written line by line falls into those lines again, as long as none of them has a
line feed. What a line begins with tells apart lines that are written for different ends.
-/

namespace EventContract.Text

variable {a b separator mark line : String} {cs rest : List Char}

/-! ## Texts on one line -/

/-- The text has no line feed. -/
def OneLine (text : String) : Prop := '\n' ∉ text.toList

instance : DecidablePred OneLine := fun text => inferInstanceAs (Decidable ('\n' ∉ text.toList))

theorem oneLine_append : OneLine (a ++ b) ↔ OneLine a ∧ OneLine b := by
  simp [OneLine, not_or]

theorem oneLine_ofList : OneLine (String.ofList cs) ↔ '\n' ∉ cs := by
  simp [OneLine]

theorem isDigit_of_mem_toString {n : Nat} {c : Char} (h : c ∈ (toString n).toList) :
    c.isDigit = true := by
  rw [Nat.toString_eq_repr, Nat.toList_repr] at h
  exact Nat.isDigit_of_mem_toDigits (by decide) (by decide) h

theorem oneLine_toString (n : Nat) : OneLine (toString n) :=
  fun hfeed => absurd (isDigit_of_mem_toString hfeed) (by decide)

theorem OneLine.append (ha : OneLine a) (hb : OneLine b) : OneLine (a ++ b) :=
  oneLine_append.mpr ⟨ha, hb⟩

theorem OneLine.between (ha : OneLine a) (hline : OneLine line) (hb : OneLine b) :
    OneLine (a ++ line ++ b) :=
  (ha.append hline).append hb

theorem joined_induction {motive : String → Prop} {texts : List String} (hnone : motive "")
    (hpair : ∀ a b, motive a → motive b → motive (a ++ separator ++ b))
    (htexts : ∀ text ∈ texts, motive text) : motive (joined separator texts) := by
  unfold Text.joined
  induction texts with
  | nil => exact hnone
  | cons text more ih =>
      obtain ⟨htext, hmore⟩ := List.forall_mem_cons.mp htexts
      cases more with
      | nil => simpa [String.intercalate_singleton] using htext
      | cons next more =>
          rw [String.intercalate_cons_cons]
          exact hpair _ _ htext (ih hmore)

theorem OneLine.joined {texts : List String} (hseparator : OneLine separator)
    (htexts : ∀ text ∈ texts, OneLine text) : OneLine (joined separator texts) :=
  joined_induction (by decide) (fun _ _ ha hb => ha.between hseparator hb) htexts

/-! ## Falling into lines -/

theorem feed_not_mem_of_mem_lines (cs : List Char) : ∀ line ∈ lines cs, '\n' ∉ line := by
  fun_induction lines cs with
  | case1 => simp
  | case2 rest ih => simpa using ih
  | case3 c rest hfeed hnone ih => simpa using Ne.symm hfeed
  | case4 c rest hfeed line more hlines ih =>
      rw [hlines] at ih
      obtain ⟨hline, hmore⟩ := List.forall_mem_cons.mp ih
      refine List.forall_mem_cons.mpr ⟨?_, hmore⟩
      rw [List.mem_cons, not_or]
      exact ⟨Ne.symm hfeed, hline⟩

theorem lines_append_feed (h : '\n' ∉ cs) : lines (cs ++ '\n' :: rest) = cs :: lines rest := by
  induction cs with
  | nil => simp [lines]
  | cons c cs ih =>
      rw [List.mem_cons, not_or] at h
      rw [List.cons_append, lines, if_neg (Ne.symm h.1), ih h.2]

/-- The lines of a text, without their line feeds. -/
def linesOf (text : String) : List String :=
  (lines text.toList).map String.ofList

theorem toList_unlines_cons (line : String) (more : List String) :
    (unlines (line :: more)).toList = line.toList ++ '\n' :: (unlines more).toList := by
  simp [unlines, String.toList_join]

theorem unlines_append (ls ms : List String) : unlines (ls ++ ms) = unlines ls ++ unlines ms := by
  simp [unlines, String.join_append]

theorem linesOf_unlines_append {ls : List String} (h : ∀ line ∈ ls, OneLine line)
    (ms : List String) : linesOf (unlines (ls ++ ms)) = ls ++ linesOf (unlines ms) := by
  induction ls with
  | nil => rfl
  | cons line more ih =>
      obtain ⟨hline, hmore⟩ := List.forall_mem_cons.mp h
      rw [linesOf, List.cons_append, toList_unlines_cons, lines_append_feed hline, List.map_cons,
        String.ofList_toList]
      exact congrArg _ (ih hmore)

theorem linesOf_unlines {ls : List String} (h : ∀ line ∈ ls, OneLine line) :
    linesOf (unlines ls) = ls := by
  have hlines := linesOf_unlines_append h []
  rw [List.append_nil] at hlines
  rw [hlines]
  exact List.append_nil ls

theorem oneLine_of_mem_linesOf {text : String} (h : line ∈ linesOf text) : OneLine line := by
  obtain ⟨cs, hcs, rfl⟩ := List.mem_map.mp h
  exact oneLine_ofList.mpr (feed_not_mem_of_mem_lines _ cs hcs)

/-! ## Reading line by line -/

/-- The texts are lines, and a reader of lines finds the items in them, whatever comes after. -/
structure Reads {β : Type} (read : List String → List β) (ls : List String) (found : List β) :
    Prop where
  oneLine : ∀ line ∈ ls, OneLine line
  read_append : ∀ rest, read (ls ++ rest) = found ++ read rest

namespace Reads

variable {α β : Type} {read : List String → List β} {ls ms : List String} {found more : List β}
  {items : List α} {f : α → List String} {g : α → List β}

theorem nil : Reads read [] [] := ⟨by simp, fun _ => rfl⟩

theorem append (hls : Reads read ls found) (hms : Reads read ms more) :
    Reads read (ls ++ ms) (found ++ more) where
  oneLine := List.forall_mem_append.mpr ⟨hls.oneLine, hms.oneLine⟩
  read_append rest := by
    rw [List.append_assoc, hls.read_append, hms.read_append, List.append_assoc]

theorem flatMap (h : ∀ item ∈ items, Reads read (f item) (g item)) :
    Reads read (items.flatMap f) (items.flatMap g) := by
  induction items with
  | nil => exact nil
  | cons item rest ih =>
      obtain ⟨hitem, hrest⟩ := List.forall_mem_cons.mp h
      exact hitem.append (ih hrest)

/-- Lines that the reader passes over have nothing to find. -/
theorem passed (h : ∀ line ∈ ls, OneLine line ∧ ∀ rest, read (line :: rest) = read rest) :
    Reads read ls [] := by
  refine ⟨fun line hline => (h line hline).1, fun rest => ?_⟩
  induction ls with
  | nil => rfl
  | cons line more ih =>
      obtain ⟨hline, hmore⟩ := List.forall_mem_cons.mp h
      exact (hline.2 (more ++ rest)).trans (ih hmore)

theorem read_linesOf (h : Reads read ls found) (hnil : read [] = []) :
    read (linesOf (unlines ls)) = found := by
  rw [linesOf_unlines h.oneLine]
  simpa [hnil] using h.read_append []

end Reads

/-! ## What a line begins with -/

/-- The line begins with a mark. -/
def Opens (mark line : String) : Prop := mark.toList <+: line.toList

instance (mark line : String) : Decidable (Opens mark line) :=
  inferInstanceAs (Decidable (mark.toList <+: line.toList))

theorem opens_append (mark rest : String) : Opens mark (mark ++ rest) := by
  rw [Opens, String.toList_append]
  exact List.prefix_append _ _

theorem Opens.append (h : Opens mark line) (rest : String) : Opens mark (line ++ rest) := by
  rw [Opens, String.toList_append]
  exact h.trans (List.prefix_append _ _)

/-- Of two marks that a line begins with one begins with the other. -/
theorem Opens.or (ha : Opens a line) (hb : Opens b line) : Opens a b ∨ Opens b a :=
  List.prefix_or_prefix_of_prefix ha hb

/-! ## Lines of a comment -/

theorem isPrefix_trimEnd (cs : List Char) : trimEnd cs <+: cs := by
  have hsuffix := List.reverse_prefix.mpr (List.dropWhile_suffix (l := cs.reverse) isBlank)
  rwa [List.reverse_reverse] at hsuffix

theorem oneLine_trimmedEnd {text : String} (h : OneLine text) : OneLine (trimmedEnd text) :=
  oneLine_ofList.mpr fun hmem => h ((isPrefix_trimEnd _).subset hmem)

/-- A line of a comment is a line of the text whose marks are broken up, without blanks behind. -/
theorem exists_of_mem_commentLines {text : String} (h : line ∈ commentLines text) :
    ∃ cs ∈ lines (breakClosing text.toList), line = String.ofList (trimEnd cs) := by
  unfold commentLines at h
  simp only at h
  split at h
  · cases h
  · obtain ⟨cs, hcs, rfl⟩ := List.mem_map.mp h
    exact ⟨cs, hcs, rfl⟩

theorem oneLine_of_mem_commentLines {text : String} (h : line ∈ commentLines text) :
    OneLine line := by
  obtain ⟨cs, hcs, rfl⟩ := exists_of_mem_commentLines h
  exact oneLine_ofList.mpr fun hmem =>
    feed_not_mem_of_mem_lines _ cs hcs ((isPrefix_trimEnd cs).subset hmem)

theorem lines_ne_nil (h : cs ≠ []) : lines cs ≠ [] := by
  cases cs with
  | nil => exact absurd rfl h
  | cons c rest =>
      rw [lines]
      split
      · simp
      · split <;> simp

theorem breakClosing_ne_nil (h : cs ≠ []) : breakClosing cs ≠ [] := by
  fun_cases breakClosing cs with
  | case1 => simp
  | case2 => simp
  | case3 => exact absurd rfl h

/-- A text without lines in a comment is blank. -/
theorem commentLines_eq_nil_iff {text : String} :
    commentLines text = [] ↔ isAllBlank text.toList = true := by
  refine ⟨fun h => ?_, fun hblank => if_pos hblank⟩
  unfold commentLines at h
  simp only at h
  split at h
  next hblank => exact hblank
  next hblank =>
    have hcs : text.toList ≠ [] := by
      intro heq
      rw [heq] at hblank
      exact hblank rfl
    exact absurd (List.map_eq_nil_iff.mp h) (lines_ne_nil (breakClosing_ne_nil hcs))

end EventContract.Text
