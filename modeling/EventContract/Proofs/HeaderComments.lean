import EventContract.Proofs.CommentText
import EventContract.Proofs.HeaderCode
import EventContract.Schema.WellFormed

/-! # The comments of an emission header

Texts of a schema stand in comments of two kinds: what the source is called in the line comments of
the banner, names and descriptions in the block comment of each function. Descriptions have their
closing marks broken up before they are written. The other two texts are written as they are, and
what they hold decides whether they stay inside.
-/

namespace EventContract.Emission

open Text

variable {event : Event} {source : String} {schema : Schema} {options : Options}

/-! ## One comment -/

/-- The lines of a function's comment between the one that opens it and the one that closes it. -/
def commentBody (event : Event) : List String :=
  summary event ++ (if event.payload.isEmpty then [] else [" *"]) ++
    (parameters event).map fun (field, parameter) => parameterDoc field parameter

/-- What stands between the marks that open and close the comment. -/
def commentText (event : Event) : List Char :=
  '\n' :: ((unlines (commentBody event)).toList ++ [' '])

theorem unclosed_commentLine {text : String} (h : Unclosed text.toList) :
    Unclosed (commentLine text).toList := by
  unfold commentLine
  simp only
  split
  · decide
  · rw [String.toList_append, unclosed_append (.inl (by decide))]
    exact ⟨by decide, unclosed_trimmedEnd h⟩

theorem unclosed_parameterDoc {entry : Field × String} (h : entry ∈ parameters event) :
    Unclosed (parameterDoc entry.1 entry.2).toList := by
  have hname : Unclosed ("@param " ++ entry.2).toList := by
    rw [String.toList_append, unclosed_append (.inl (by decide))]
    refine ⟨by decide, unclosed_of_not_mem fun hstar => ?_⟩
    have hchar := Name.isIdentifierChar_of_mem (isIdentifier_of_mem_parameters h) _ hstar
    exact absurd hchar (by decide)
  have hdescription : Unclosed (" " ++ joined " " (commentLines entry.1.description)).toList := by
    rw [String.toList_append, unclosed_append (.inl (by decide))]
    exact ⟨by decide, unclosed_joined fun text htext => unclosed_of_mem_commentLines htext⟩
  apply unclosed_commentLine
  rw [String.append_assoc, String.toList_append, unclosed_append (.inr (by simp))]
  exact ⟨hname, hdescription⟩

/-- A name is the one text of a comment that is written as it is, where a description is blank. -/
theorem unclosed_summary_iff :
    (∀ line ∈ summary event, Unclosed line.toList) ↔
      (isAllBlank event.description.toList → Unclosed event.name.toList) := by
  unfold summary
  split
  next hnone =>
    rw [commentLines_eq_nil_iff] at hnone
    rw [List.forall_mem_singleton, String.toList_append, String.toList_append,
      unclosed_append (.inr (by decide)), unclosed_append (.inl (by decide))]
    have hfixed : Unclosed " * Publish the \"".toList ∧ Unclosed "\" event.".toList := by decide
    exact ⟨fun h _ => h.1.2, fun h => ⟨⟨hfixed.1, h hnone⟩, hfixed.2⟩⟩
  next hsome =>
    refine ⟨fun _ hblank => absurd (commentLines_eq_nil_iff.mpr hblank) hsome, ?_⟩
    intro _ line hline
    obtain ⟨text, htext, rfl⟩ := List.mem_map.mp hline
    exact unclosed_commentLine (unclosed_of_mem_commentLines htext)

theorem unclosed_commentText_iff :
    Unclosed (commentText event) ↔
      (isAllBlank event.description.toList → Unclosed event.name.toList) := by
  have hparameters : ∀ line ∈ (parameters event).map
      (fun entry => parameterDoc entry.1 entry.2), Unclosed line.toList := by
    rw [List.forall_mem_map]
    exact fun entry hentry => unclosed_parameterDoc hentry
  have hmargin : ∀ line ∈ (if event.payload.isEmpty then [] else [" *"] : List String),
      Unclosed line.toList := by
    split <;> decide
  rw [commentText, unclosed_cons, unclosed_append (.inr (by simp)), unclosed_unlines_iff,
    commentBody, List.forall_mem_append, List.forall_mem_append, unclosed_summary_iff]
  have hspace : Unclosed [' '] := by decide
  exact ⟨fun h => h.2.1.1.1, fun h => ⟨by simp, ⟨⟨h, hmargin⟩, hparameters⟩, hspace⟩⟩

/-! ## The whole header -/

/-- The lines of a header before the function of an event, given the events before it. -/
def headerFront (earlier : List Event) (options : Options) (source : String) : List String :=
  banner source ++ [""] ++ guardOpening options ++ includes options ++
    ["namespace " ++ options.enclosing ++ " \x7b", ""] ++ earlier.flatMap function

/-- The comment of a function in the header: what is before it, its marks and its text, and the
signature on the line behind it. -/
theorem toList_headerText (endpoint : String) (earlier : List Event) (event : Event)
    (later : List Event) (options : Options) (source : String) :
    ∃ rest, (headerText ⟨endpoint, earlier ++ event :: later⟩ options source).toList =
      (unlines (headerFront earlier options source)).toList ++ "/**".toList ++
        (commentText event ++ "*/".toList ++
          '\n' :: ((signature event).toList ++ '\n' :: rest)) := by
  have hlines : ∃ rest, headerLines ⟨endpoint, earlier ++ event :: later⟩ options source =
      headerFront earlier options source ++
        ("/**" :: (commentBody event ++ (" */" :: signature event :: rest))) := by
    refine ⟨"    nlohmann::json payload = nlohmann::json::object();" ::
      ((parameters event).map (fun entry => assignment entry.1 entry.2) ++
        [broadcast event, "\x7d", ""] ++ later.flatMap function ++
          ["\x7d  // namespace " ++ options.enclosing] ++ guardClosing options), ?_⟩
    simp [headerLines, headerFront, function, documentation, commentBody]
  obtain ⟨rest, hlines⟩ := hlines
  refine ⟨(unlines rest).toList, ?_⟩
  rw [headerText, hlines, unlines_append, String.toList_append, toList_unlines_cons,
    unlines_append, String.toList_append, toList_unlines_cons, toList_unlines_cons, commentText]
  have hclosing : " */".toList = ' ' :: "*/".toList := rfl
  simp [hclosing]

/-- The banner is what it is meant to be exactly if the source is called by a text on one line. -/
theorem banner_read_iff (schema : Schema) (options : Options) (source : String) :
    (linesOf (headerText schema options source)).take 2 = banner source ↔ OneLine source := by
  constructor
  · intro h
    have hline : "// Generated by eventgen from " ++ source ++ "." ∈
        linesOf (headerText schema options source) :=
      List.mem_of_mem_take (by rw [h]; exact List.mem_cons_self)
    exact (oneLine_append.mp (oneLine_append.mp (oneLine_of_mem_linesOf hline)).1).2
  · intro h
    have hbanner : ∀ line ∈ banner source, OneLine line := by
      simp only [banner, List.forall_mem_cons]
      exact ⟨OneLine.between (by decide) h (by decide), by decide, by simp⟩
    simp only [headerText, headerLines, List.append_assoc]
    rw [linesOf_unlines_append hbanner]
    exact List.take_left' rfl

/-- The banner keeps what the source is called exactly if that is on one line. The comment of each
function ends where it is meant to, on the line before the signature, exactly if the event has a
description or its name has no closing mark. No description, of an event or of a field, ends it. -/
theorem header_comments_iff (schema : Schema) (options : Options) (source : String) :
    ((linesOf (headerText schema options source)).take 2 = banner source ↔ OneLine source) ∧
      ∀ earlier event later, schema.events = earlier ++ event :: later →
        ∃ behind rest, (headerText schema options source).toList =
            (unlines (headerFront earlier options source)).toList ++ "/**".toList ++
              (commentText event ++ "*/".toList ++ behind) ∧
          behind = '\n' :: ((signature event).toList ++ '\n' :: rest) ∧
          (untilClosing (commentText event ++ "*/".toList ++ behind) =
              some (commentText event, behind) ↔
            (isAllBlank event.description.toList → Unclosed event.name.toList)) := by
  refine ⟨banner_read_iff schema options source, ?_⟩
  intro earlier event later hevents
  obtain ⟨rest, htext⟩ :=
    toList_headerText schema.endpoint earlier event later options source
  rw [← hevents] at htext
  refine ⟨_, rest, htext, rfl, ?_⟩
  have hmark : "*/".toList = ['*', '/'] := rfl
  rw [hmark, List.append_assoc, List.cons_append, List.cons_append, List.nil_append,
    untilClosing_eq_iff, unclosed_commentText_iff]

namespace Sample

def described : Event :=
  ⟨"c*/d", "this */ neither\n*/", [⟨"y", .number, "*", none⟩, ⟨"/", .string, "", none⟩]⟩

def undescribed : Event :=
  ⟨"a*/b", "", [⟨"x*/", .number, "no */ end", none⟩]⟩

/-- Closing marks in all texts. -/
def marked : Schema := ⟨"/events", [undescribed, described]⟩

end Sample

/-- Where there is a description, none of the texts ends the comment. -/
theorem header_comments_iff_described :
    (linesOf (headerText Sample.marked Options.default "a.json")).take 2 = banner "a.json" ∧
      ∃ rest, untilClosing (commentText Sample.described ++ "*/".toList ++ rest) =
          some (commentText Sample.described, rest) ∧
        (signature Sample.described).toList <:+: rest := by
  obtain ⟨hbanner, hcomments⟩ := header_comments_iff Sample.marked Options.default "a.json"
  obtain ⟨behind, rest, -, hbehind, hclosing⟩ :=
    hcomments [Sample.undescribed] Sample.described [] rfl
  refine ⟨hbanner.mpr (by decide), behind, hclosing.mpr fun hblank => ?_, ?_⟩
  · exact absurd hblank (by decide)
  · exact ⟨['\n'], '\n' :: rest, by simp [hbehind]⟩

/-- Without a description, the name of an accepted event ends the comment in the middle of the line
that names it. A source that is called by two lines does not keep to the banner either. -/
theorem name_ends_comment :
    Sample.marked.check = .ok () ∧
      (∃ behind after, (headerText Sample.marked Options.default "a.json").toList =
          (unlines (headerFront [] Options.default "a.json")).toList ++ "/**".toList ++ behind ∧
        untilClosing behind =
          some ("\n * Publish the \"a".toList, "b\" event.\n".toList ++ after)) ∧
      (linesOf (headerText Sample.marked Options.default "a\nint b;")).take 2 ≠
        banner "a\nint b;" := by
  obtain ⟨rest, htext⟩ := toList_headerText "/events" [] Sample.undescribed [Sample.described]
    Options.default "a.json"
  have hcomment : commentText Sample.undescribed = "\n * Publish the \"a".toList ++
      '*' :: '/' :: ("b\" event.\n".toList ++ " *\n * @param x__ no * / end\n ".toList) := by
    decide +kernel
  refine ⟨by decide +kernel, ⟨_, " *\n * @param x__ no * / end\n ".toList ++ ("*/".toList ++
    '\n' :: ((signature Sample.undescribed).toList ++ '\n' :: rest)), htext, ?_⟩, ?_⟩
  · rw [hcomment]
    simp only [List.append_assoc, List.cons_append]
    exact untilClosing_eq_iff.mpr (by decide)
  · exact mt (banner_read_iff _ _ _).mp (by decide)

end EventContract.Emission
