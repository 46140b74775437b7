import EventContract.Proofs.TextLines
import Mathlib.Data.List.TakeWhile

/-! # Brackets of a text

A text is read with the brackets that are open before it. Each closing bracket has to belong to the
innermost open one; where none is left open the text is balanced. What is open around a text has no
part in this, so balanced texts may stand next to each other and between brackets. Other characters
have no part in it either, so a text may also be trimmed and cut into lines.
-/

namespace EventContract.Text

variable {s t text line separator : String} {ls texts : List String} {cs : List Char} {c : Char}
  {before middle after opened next : List Char}

/-! ## Reading brackets -/

def isOpening (c : Char) : Bool := c == '{' || c == '(' || c == '['

/-- The bracket that a closing one belongs to. -/
def opener? : Char → Option Char
  | '}' => some '{'
  | ')' => some '('
  | ']' => some '['
  | _ => none

/-- The brackets that are open behind a character, the innermost first; nothing if the character
closes a bracket that is not the innermost one. -/
def takeBracket (opened : List Char) (c : Char) : Option (List Char) :=
  if isOpening c then some (c :: opened)
  else
    match opener? c, opened with
    | none, _ => some opened
    | some _, [] => none
    | some opening, innermost :: outer => if innermost = opening then some outer else none

/-- Read with the brackets `before` open, the text leaves the brackets `after` open. -/
def Turns (before after : List Char) (text : String) : Prop :=
  text.toList.foldlM takeBracket before = some after

instance (before after : List Char) : DecidablePred (Turns before after) := fun text =>
  inferInstanceAs (Decidable (text.toList.foldlM takeBracket before = some after))

/-- Every closing bracket belongs to the innermost open one, and none is left open. -/
def IsBalanced (text : String) : Prop := Turns [] [] text

instance : DecidablePred IsBalanced := fun text => inferInstanceAs (Decidable (Turns [] [] text))

example : IsBalanced "f(a[0]) \x7b\x7d" ∧ ¬ IsBalanced "(]" ∧ ¬ IsBalanced "[" ∧
    ¬ IsBalanced "]" := by
  decide

/-! ## Putting texts together -/

theorem takeBracket_append (h : takeBracket opened c = some next) (outer : List Char) :
    takeBracket (opened ++ outer) c = some (next ++ outer) := by
  unfold takeBracket at h ⊢
  split at h
  next hopening =>
    cases h
    rw [if_pos hopening, List.cons_append]
  next hopening =>
    rw [if_neg hopening]
    split at h
    next hother =>
      cases h
      rw [hother]
    next => cases h
    next opening innermost rest hcloses =>
      rw [hcloses, List.cons_append]
      split at h
      next hmatch =>
        -- The innermost bracket is the same one with others further out.
        cases h
        exact if_pos hmatch
      next => cases h

/-- What is open further out does not matter. -/
theorem Turns.under (h : Turns before after text) (outer : List Char) :
    Turns (before ++ outer) (after ++ outer) text := by
  unfold Turns at h ⊢
  generalize text.toList = cs at h ⊢
  induction cs generalizing before with
  | nil =>
      cases h
      rfl
  | cons c cs ih =>
      rw [List.foldlM_cons] at h ⊢
      obtain ⟨next, hnext, hrest⟩ := Option.bind_eq_some_iff.mp h
      rw [takeBracket_append hnext outer]
      exact ih hrest

theorem Turns.append (hs : Turns before middle s) (ht : Turns middle after t) :
    Turns before after (s ++ t) := by
  rw [Turns, String.toList_append, List.foldlM_append, hs]
  exact ht

theorem IsBalanced.turns (h : IsBalanced text) (opened : List Char) : Turns opened opened text :=
  h.under opened

theorem IsBalanced.append (hs : IsBalanced s) (ht : IsBalanced t) : IsBalanced (s ++ t) :=
  Turns.append hs ht

theorem IsBalanced.between (hs : IsBalanced s) (htext : IsBalanced text) (ht : IsBalanced t) :
    IsBalanced (s ++ text ++ t) :=
  (hs.append htext).append ht

theorem IsBalanced.joined (hseparator : IsBalanced separator)
    (htexts : ∀ text ∈ texts, IsBalanced text) : IsBalanced (joined separator texts) :=
  joined_induction (by decide) (fun _ _ hs ht => hs.between hseparator ht) htexts

theorem unlines_cons (line : String) (more : List String) :
    unlines (line :: more) = line ++ "\n" ++ unlines more := by
  simp [unlines]

theorem Turns.cons_unlines (hline : Turns before middle line)
    (hmore : Turns middle after (unlines ls)) : Turns before after (unlines (line :: ls)) := by
  have hfeed : IsBalanced "\n" := by decide
  rw [unlines_cons]
  exact (hline.append (hfeed.turns middle)).append hmore

theorem IsBalanced.cons_unlines (hline : IsBalanced line)
    (hmore : Turns before after (unlines ls)) : Turns before after (unlines (line :: ls)) :=
  (hline.turns before).cons_unlines hmore

theorem isBalanced_unlines (h : ∀ line ∈ ls, IsBalanced line) : IsBalanced (unlines ls) := by
  induction ls with
  | nil => decide
  | cons line more ih =>
      obtain ⟨hline, hmore⟩ := List.forall_mem_cons.mp h
      exact hline.cons_unlines (ih hmore)

theorem isBalanced_unlines_flatMap {α : Type} {items : List α} {f : α → List String}
    (h : ∀ item ∈ items, IsBalanced (unlines (f item))) :
    IsBalanced (unlines (items.flatMap f)) := by
  induction items with
  | nil => rfl
  | cons item rest ih =>
      obtain ⟨hitem, hrest⟩ := List.forall_mem_cons.mp h
      rw [List.flatMap_cons, unlines_append]
      exact hitem.append (ih hrest)

/-! ## Nothing but the brackets counts -/

def allBrackets : List Char := ['{', '(', '[', '}', ')', ']']

def isBracket (c : Char) : Bool := c ∈ allBrackets

/-- The brackets of a text, in order. -/
def brackets (text : String) : List Char := text.toList.filter isBracket

theorem takeBracket_of_not_isBracket (h : ¬ isBracket c) (opened : List Char) :
    takeBracket opened c = some opened := by
  have hother : c ∉ allBrackets := by simpa [isBracket] using h
  simp only [allBrackets, List.mem_cons, List.not_mem_nil, not_or] at hother
  simp [takeBracket, isOpening, opener?, hother]

theorem foldlM_filter_isBracket (cs opened : List Char) :
    (cs.filter isBracket).foldlM takeBracket opened = cs.foldlM takeBracket opened := by
  induction cs generalizing opened with
  | nil => rfl
  | cons c cs ih =>
      by_cases hc : isBracket c
      · rw [List.filter_cons_of_pos hc, List.foldlM_cons, List.foldlM_cons]
        exact congrArg _ (funext ih)
      · rw [List.filter_cons_of_neg hc, List.foldlM_cons, takeBracket_of_not_isBracket hc, ih]
        rfl

theorem Turns.of_brackets_eq (hs : Turns before after s) (h : brackets t = brackets s) :
    Turns before after t := by
  rw [Turns, ← foldlM_filter_isBracket, ← brackets] at hs ⊢
  rwa [h]

theorem isBalanced_of_brackets_eq_nil (h : brackets text = []) : IsBalanced text :=
  Turns.of_brackets_eq (show Turns [] [] "" by decide) h

/-- Characters of a kind that no bracket is of are no brackets. -/
theorem filter_isBracket_eq_nil {kind : Char → Bool} (hkind : allBrackets.any kind = false)
    (h : ∀ c ∈ cs, kind c = true) : cs.filter isBracket = [] := by
  refine List.filter_eq_nil_iff.mpr fun c hc hbracket => ?_
  exact List.any_eq_false.mp hkind c (of_decide_eq_true hbracket) (h c hc)

/-- Brackets are kept if they are kept as they are and none comes from another character. -/
theorem filter_isBracket_flatMap {f : Char → List Char}
    (hkept : allBrackets.all (fun c => f c = [c]) = true)
    (hother : ∀ c, ¬ isBracket c → (f c).filter isBracket = []) (cs : List Char) :
    (cs.flatMap f).filter isBracket = cs.filter isBracket := by
  induction cs with
  | nil => rfl
  | cons c cs ih =>
      rw [List.flatMap_cons, List.filter_append, ih]
      by_cases hc : isBracket c
      · have hsame : f c = [c] := by
          simpa using List.all_eq_true.mp hkept c (of_decide_eq_true hc)
        rw [hsame, ← List.filter_append, List.singleton_append]
      · rw [hother c hc, List.nil_append, List.filter_cons_of_neg hc]

theorem brackets_append (s t : String) : brackets (s ++ t) = brackets s ++ brackets t := by
  rw [brackets, String.toList_append, List.filter_append, brackets, brackets]

theorem brackets_toString (n : Nat) : brackets (toString n) = [] := by
  have hdigits : ∀ c ∈ (toString n).toList, c.isDigit = true := fun _ => isDigit_of_mem_toString
  exact filter_isBracket_eq_nil (by decide) hdigits

theorem brackets_unlines (ls : List String) : brackets (unlines ls) = ls.flatMap brackets := by
  induction ls with
  | nil => rfl
  | cons line more ih =>
      rw [unlines_cons, brackets_append, brackets_append, ih, List.flatMap_cons,
        show brackets "\n" = [] by decide, List.append_nil]

theorem brackets_joined (h : brackets separator = []) (texts : List String) :
    brackets (joined separator texts) = texts.flatMap brackets := by
  unfold Text.joined
  induction texts with
  | nil => rfl
  | cons text more ih =>
      cases more with
      | nil => simp [String.intercalate_singleton]
      | cons next more =>
          rw [String.intercalate_cons_cons, brackets_append, brackets_append, h, ih,
            List.append_nil]
          rfl

/-! ## Lines of a comment -/

theorem filter_isBracket_trimEnd (cs : List Char) :
    (trimEnd cs).filter isBracket = cs.filter isBracket := by
  have hblanks : (cs.reverse.takeWhile isBlank).filter isBracket = [] :=
    filter_isBracket_eq_nil (by decide) fun c hc => List.mem_takeWhile_imp hc
  have hfilter : cs.reverse.filter isBracket = (cs.reverse.dropWhile isBlank).filter isBracket := by
    conv_lhs => rw [← List.takeWhile_append_dropWhile (p := isBlank) (l := cs.reverse)]
    rw [List.filter_append, hblanks, List.nil_append]
  rw [trimEnd, List.filter_reverse, ← hfilter, List.filter_reverse, List.reverse_reverse]

theorem filter_isBracket_breakClosing (cs : List Char) :
    (breakClosing cs).filter isBracket = cs.filter isBracket := by
  fun_induction breakClosing cs with
  | case1 rest ih =>
      have hmark : ['*', ' ', '/'].filter isBracket = ['*', '/'].filter isBracket := by decide
      change (['*', ' ', '/'] ++ breakClosing rest).filter isBracket =
        (['*', '/'] ++ rest).filter isBracket
      rw [List.filter_append, List.filter_append, hmark, ih]
  | case2 c rest hother ih => rw [List.filter_cons, List.filter_cons, ih]
  | case3 => rfl

theorem flatMap_filter_lines (cs : List Char) :
    (lines cs).flatMap (List.filter isBracket) = cs.filter isBracket := by
  fun_induction lines cs with
  | case1 => rfl
  | case2 rest ih => exact ih
  | case3 c rest hfeed hnone ih =>
      rw [hnone] at ih
      simp [List.filter_cons, ← ih]
  | case4 c rest hfeed line more hlines ih =>
      rw [hlines] at ih
      by_cases hc : isBracket c <;> simp [hc, ← ih]

theorem brackets_trimmedEnd (text : String) : brackets (trimmedEnd text) = brackets text := by
  rw [brackets, trimmedEnd, String.toList_ofList, filter_isBracket_trimEnd, brackets]

/-- The lines of a comment have the brackets of the text together. -/
theorem flatMap_brackets_commentLines (text : String) :
    (commentLines text).flatMap brackets = brackets text := by
  unfold commentLines
  simp only
  split
  next hblank =>
    exact (filter_isBracket_eq_nil (by decide) (List.all_eq_true.mp hblank)).symm
  next =>
    simp only [List.flatMap_map, brackets, String.toList_ofList, filter_isBracket_trimEnd]
    rw [flatMap_filter_lines, filter_isBracket_breakClosing]

end EventContract.Text
