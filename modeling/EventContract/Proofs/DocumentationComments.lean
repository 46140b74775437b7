import EventContract.Proofs.CommentText
import EventContract.Proofs.InterfaceBlocks

/-! # Documentation comments of a consumption module

A documentation comment holds one text of a schema. Whatever the text, the comment ends at the mark
that is written to end it, and each line behind the first has the margin of a comment. So the lines
of a payload interface with its comments are of a few kinds, which are told apart by what they begin
with.
-/

namespace EventContract

open Text

/-! ## Where a mark is found -/

/-- In front of a text without closing marks there is one mark only, if there is none before it. -/
theorem Text.Unclosed.behind_eq {cs ds before behind : List Char} (hcs : Unclosed cs)
    (hds : Unclosed ds) (h : cs ++ '*' :: '/' :: ds = before ++ '*' :: '/' :: behind) :
    behind = ds := by
  induction cs generalizing before with
  | nil =>
      match before with
      | [] =>
          cases h
          rfl
      | [_] =>
          simp at h
      | _ :: _ :: before =>
          -- The second mark would stand in the text behind the first.
          rw [List.nil_append, List.cons_append, List.cons_append, List.cons.injEq,
            List.cons.injEq] at h
          exact absurd ⟨before, behind, by simp [h.2.2]⟩ hds
  | cons c cs ih =>
      rw [unclosed_cons] at hcs
      cases before with
      | nil =>
          -- The second mark would begin in the text before the first.
          rw [List.cons_append, List.nil_append, List.cons.injEq] at h
          refine absurd ⟨h.1, ?_⟩ hcs.1
          cases cs with
          | nil => simp at h
          | cons d cs => simpa using (List.cons.inj h.2).1
      | cons b before =>
          rw [List.cons_append, List.cons_append, List.cons.injEq] at h
          exact ih hcs.2 h.2

theorem Text.getLast?_unlines {ls : List String} (h : ls ≠ []) :
    (unlines ls).toList.getLast? = some '\n' := by
  rw [← List.dropLast_append_getLast h, unlines_append]
  simp [unlines]

namespace Consumption

variable {indent text line : String}

/-- A comment at an indentation: it is opened there and closed at its very end, nowhere before, and
its further lines have the margin. -/
structure Encloses (indent written : String) : Prop where
  marks : ∃ body, written = body ++ "*/\n" ∧ Opens (indent ++ "/**") body
  closed : ∀ before behind, written = before ++ "*/" ++ behind → behind = "\n"
  margins : ∀ line ∈ (linesOf written).tail, Opens (indent ++ " *") line

/-! ## One comment -/

/-- A line of a comment that takes more than one. -/
def marginLine (indent line : String) : String :=
  if line.isEmpty then indent ++ " *" else indent ++ " * " ++ line

theorem docComment_eq (indent text : String) : docComment indent text =
    match commentLines text with
    | [] => []
    | [line] => [indent ++ "/** " ++ line ++ " */"]
    | ls => (indent ++ "/**") :: (ls.map (marginLine indent) ++ [indent ++ " */"]) := rfl

theorem opens_marginLine (indent line : String) :
    Opens (indent ++ " *") (marginLine indent line) := by
  unfold marginLine
  split
  · exact List.prefix_refl _
  · simp [Opens]

theorem unclosed_indented {mark : String} (hindent : '*' ∉ indent.toList)
    (hmark : Unclosed mark.toList) : Unclosed (indent ++ mark).toList := by
  have hlast : indent.toList.getLast? ≠ some '*' :=
    fun hlast => hindent (List.mem_of_getLast? hlast)
  rw [String.toList_append, unclosed_append (.inl hlast)]
  exact ⟨unclosed_of_not_mem hindent, hmark⟩

theorem unclosed_marginLine (hindent : '*' ∉ indent.toList) (hline : Unclosed line.toList) :
    Unclosed (marginLine indent line).toList := by
  unfold marginLine
  split
  · exact unclosed_indented hindent (by decide)
  · rw [String.toList_append, unclosed_append (.inl (by simp))]
    exact ⟨unclosed_indented hindent (by decide), hline⟩

/-- Of a comment that is written at all, the closing mark is the end, and what stands before it has
no such mark. -/
theorem exists_body (hindent : '*' ∉ indent.toList) (htext : ¬ isAllBlank text.toList) :
    ∃ body, unlines (docComment indent text) = body ++ "*/\n" ∧ Opens (indent ++ "/**") body ∧
      Unclosed body.toList := by
  have hcomment : ∀ line ∈ commentLines text, Unclosed line.toList :=
    fun line hline => unclosed_of_mem_commentLines hline
  rw [docComment_eq]
  split
  next hnone => exact absurd (commentLines_eq_nil_iff.mp hnone) htext
  next line heq =>
    have hline : Unclosed line.toList := hcomment line (by simp [heq])
    refine ⟨indent ++ "/** " ++ line ++ " ", ?_, ?_, ?_⟩
    · apply String.toList_inj.mp
      simp [unlines]
    · simp [Opens]
    · rw [String.toList_append, unclosed_append (.inr (by decide)), String.toList_append,
        unclosed_append (.inl (by simp))]
      exact ⟨⟨unclosed_indented hindent (by decide), hline⟩, by decide⟩
  next =>
    refine ⟨unlines ((indent ++ "/**") :: (commentLines text).map (marginLine indent)) ++
      (indent ++ " "), ?_, ?_, ?_⟩
    · rw [← List.cons_append, unlines_append]
      apply String.toList_inj.mp
      simp [unlines]
    · simp [Opens, toList_unlines_cons]
    · rw [String.toList_append, unclosed_append (.inl ?_), unclosed_unlines_iff,
        List.forall_mem_cons, List.forall_mem_map]
      · exact ⟨⟨unclosed_indented hindent (by decide), fun line hline =>
          unclosed_marginLine hindent (hcomment line hline)⟩,
          unclosed_indented hindent (by decide)⟩
      · simp [getLast?_unlines]

theorem docComment_margins (indent text : String) :
    ∀ line ∈ (docComment indent text).tail, Opens (indent ++ " *") line := by
  rw [docComment_eq]
  split
  next => simp
  next => simp
  next =>
    simp only [List.tail_cons, List.forall_mem_append, List.forall_mem_map,
      List.forall_mem_singleton]
    refine ⟨fun line _ => opens_marginLine indent line, ?_⟩
    simp [Opens]

/-- Whatever the text, a comment that is written encloses it. -/
theorem encloses_docComment (honeLine : OneLine indent) (hindent : '*' ∉ indent.toList)
    (htext : ¬ isAllBlank text.toList) : Encloses indent (unlines (docComment indent text)) := by
  obtain ⟨body, hbody, hopens, hunclosed⟩ := exists_body hindent htext
  refine ⟨⟨body, hbody, hopens⟩, ?_, ?_⟩
  · intro before behind hsplit
    rw [hbody] at hsplit
    have hmarks : body.toList ++ '*' :: '/' :: ['\n'] =
        before.toList ++ '*' :: '/' :: behind.toList := by
      simpa using congrArg String.toList hsplit
    exact String.toList_inj.mp (hunclosed.behind_eq (by decide) hmarks)
  · have hlines := docComment_lines honeLine text
    rw [linesOf_unlines fun line hline => (hlines line hline).1]
    exact docComment_margins indent text

/-! ## One interface -/

/-- What the lines of a payload interface begin with, the empty ones apart. -/
def interfaceMarks : List String := ["/**", " *", "export interface ", "  ", "\x7d"]

theorem lines_payloadInterface (event : Event) :
    ∀ line ∈ linesOf (unlines (payloadInterface event)),
      line = "" ∨ ∃ mark ∈ interfaceMarks, Opens mark line := by
  rw [linesOf_unlines (reads_payloadInterface event).oneLine]
  have hsummary : ∀ line ∈ docComment "" (summary event),
      ∃ mark ∈ interfaceMarks, Opens mark line := by
    intro line hline
    rcases (docComment_lines (by decide) _ line hline).2 with hopens | hopens
    · exact ⟨"/**", by decide, hopens⟩
    · exact ⟨" *", by decide, hopens⟩
  have hbody : ∀ line ∈ interfaceBody event.payload, Opens "  " line := by
    simp only [interfaceBody, List.forall_mem_flatMap, List.forall_mem_append,
      List.forall_mem_singleton]
    refine fun field _ => ⟨fun line hline => ?_, by simp [Opens, property]⟩
    rcases (docComment_lines (by decide) _ line hline).2 with hopens | hopens
    · exact List.IsPrefix.trans (by decide) hopens
    · exact List.IsPrefix.trans (by decide) hopens
  have hheading : Opens "export interface "
      ("export interface " ++ Name.payloadType event.name ++ " \x7b") :=
    (opens_append _ _).append _
  simp only [payloadInterface, List.forall_mem_append, List.forall_mem_singleton]
  refine ⟨⟨⟨?_, ?_⟩, ?_⟩, ?_⟩
  · exact fun line hline => .inr (hsummary line hline)
  · exact .inr ⟨_, by decide, hheading⟩
  · exact fun line hline => .inr ⟨"  ", by decide, hbody line hline⟩
  · exact List.forall_mem_cons.mpr
      ⟨.inr ⟨"\x7d", by decide, by decide⟩, List.forall_mem_singleton.mpr (.inl rfl)⟩

/-- No text of a schema closes a comment of the module or breaks out of it: at both indentations in
use, a blank text has no comment, and any other stands in one that ends where it is meant to and
shows its margin on each line. So every line of a payload interface begins with a mark of a comment,
opens or closes the interface, or stands inside of it, unless it is empty. -/
theorem comments_stay_whole :
    (∀ indent ∈ ["", "  "], ∀ text,
      if isAllBlank text.toList then unlines (docComment indent text) = ""
      else Encloses indent (unlines (docComment indent text))) ∧
    ∀ event, ∀ line ∈ linesOf (unlines (payloadInterface event)),
      line = "" ∨ ∃ mark ∈ ["/**", " *", "export interface ", "  ", "\x7d"], Opens mark line := by
  refine ⟨fun indent hindent text => ?_, lines_payloadInterface⟩
  have hplain : OneLine indent ∧ '*' ∉ indent.toList := by
    have hall : ∀ indent ∈ ["", "  "], OneLine indent ∧ '*' ∉ indent.toList := by decide
    exact hall indent hindent
  split
  next hblank =>
    rw [docComment_eq, commentLines_eq_nil_iff.mpr hblank]
    rfl
  next htext => exact encloses_docComment hplain.1 hplain.2 htext

/-- Closing marks in the name and in a description, next to stars, slashes and line breaks. -/
def starred : Event :=
  ⟨"b*/\nc", " ", [⟨"x", .string, "*/\r\n/ *\n\n**/", none⟩]⟩

theorem comments_stay_whole_starred :
    Encloses "  " "  /**\n   * * /\n   * / *\n   *\n   * ** /\n   */\n" ∧
      unlines (docComment "" " \n\t") = "" ∧
      " * c\" event." ∈ linesOf (unlines (payloadInterface starred)) ∧
      (" * c\" event." = "" ∨
        ∃ mark ∈ ["/**", " *", "export interface ", "  ", "\x7d"], Opens mark " * c\" event.") := by
  obtain ⟨hcomment, hinterface⟩ := comments_stay_whole
  have hwritten : unlines (docComment "  " "*/\r\n/ *\n\n**/") =
      "  /**\n   * * /\n   * / *\n   *\n   * ** /\n   */\n" := by decide +kernel
  have hline : " * c\" event." ∈ linesOf (unlines (payloadInterface starred)) := by
    decide +kernel
  refine ⟨?_, ?_, hline, hinterface starred _ hline⟩
  · have hencloses := hcomment "  " (by decide) "*/\r\n/ *\n\n**/"
    rwa [if_neg (by decide), hwritten] at hencloses
  · have hblank := hcomment "" (by decide) " \n\t"
    rwa [if_pos (by decide)] at hblank

end Consumption

end EventContract
