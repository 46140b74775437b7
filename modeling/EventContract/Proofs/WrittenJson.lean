import EventContract.Json.Reader
import EventContract.Json.Writer
import EventContract.Proofs.QuotedText
import EventContract.Proofs.TableLaws
import Mathlib.Data.List.DropRight

/-! # Written values read back

What is written of a value reads back as that value, in every layout, with the order of members
kept. Numbers are left out. A text has at least as many characters as its reading takes nested
calls, so the fuel of the reader never runs out.
-/

namespace EventContract.Json

/-- A value without numbers, in which an object has no key twice and at most so many arrays and
objects are open around a scalar. -/
inductive Textual : Nat → Json → Prop
  | null {depth} : Textual depth .null
  | bool {depth} (value) : Textual depth (.bool value)
  | string {depth} (text) : Textual depth (.string text)
  | array {depth items} (hitems : ∀ item ∈ items, Textual depth item) :
      Textual (depth + 1) (.array items)
  | object {depth members} (hdistinct : (Table.keys members).Nodup)
      (hmembers : ∀ member ∈ members, Textual depth member.2) :
      Textual (depth + 1) (.object members)

variable {layout : Layout} {fuel depth level outer : Nat} {cs rest : List Char}

/-! ## Spacing in front -/

theorem skipSpacing_append {blanks : List Char} (hblanks : ∀ c ∈ blanks, isSpacing c = true)
    (cs : List Char) : skipSpacing (blanks ++ cs) = skipSpacing cs :=
  List.dropWhile_append_of_pos hblanks

theorem skipSpacing_skipSpacing (cs : List Char) :
    skipSpacing (skipSpacing cs) = skipSpacing cs :=
  List.dropWhile_idempotent _ _

theorem readValue_congr {cs' : List Char} (h : skipSpacing cs = skipSpacing cs') :
    readValue fuel depth cs = readValue fuel depth cs' := by
  cases fuel with
  | zero => rw [readValue, readValue]
  | succ fuel => rw [readValue, readValue, h]

theorem readItems_congr {cs' : List Char} (h : skipSpacing cs = skipSpacing cs') :
    readItems fuel depth cs = readItems fuel depth cs' := by
  cases fuel with
  | zero => rw [readItems, readItems]
  | succ fuel => rw [readItems, readItems, readValue_congr h]

theorem readMembers_congr {cs' : List Char} (h : skipSpacing cs = skipSpacing cs') :
    readMembers fuel depth cs = readMembers fuel depth cs' := by
  cases fuel with
  | zero => rw [readMembers, readMembers]
  | succ fuel => rw [readMembers, readMembers, h]

/-! ## Arrays and objects that are not empty -/

theorem readItems_closed : readItems fuel depth (']' :: cs) = none := by
  cases fuel with
  | zero => rw [readItems]
  | succ fuel =>
      have hvalue : readValue fuel depth (']' :: cs) = none := by
        cases fuel with
        | zero => rw [readValue]
        | succ fuel => rfl
      rw [readItems, hvalue]
      rfl

theorem readMembers_closed : readMembers fuel depth ('\x7d' :: cs) = none := by
  cases fuel with
  | zero => rw [readMembers]
  | succ fuel => rfl

theorem readValue_array {items : List Json} (h : readItems fuel depth cs = some (items, rest)) :
    readValue (fuel + 1) (depth + 1) ('[' :: cs) = some (.array items, rest) := by
  have hopen : skipSpacing ('[' :: cs) = '[' :: cs := rfl
  -- The reader looks for a closing bracket first, from which no items would have been read.
  rw [← readItems_congr (skipSpacing_skipSpacing cs)] at h
  simp only [readValue, hopen]
  split
  next heq =>
    rw [heq, readItems_closed] at h
    cases h
  next => rw [h, Option.map_some]

theorem readValue_object {members : List (String × Json)}
    (h : readMembers fuel depth cs = some (members, rest)) :
    readValue (fuel + 1) (depth + 1) ('\x7b' :: cs) =
      some (.object (Table.ofPairs members), rest) := by
  have hopen : skipSpacing ('\x7b' :: cs) = '\x7b' :: cs := rfl
  rw [← readMembers_congr (skipSpacing_skipSpacing cs)] at h
  simp only [readValue, hopen]
  split
  next heq =>
    rw [heq, readMembers_closed] at h
    cases h
  next => rw [h, Option.map_some]

theorem readItems_last {item : Json} {tail : List Char}
    (hitem : readValue fuel depth cs = some (item, tail)) (hclose : skipSpacing tail = ']' :: rest) :
    readItems (fuel + 1) depth cs = some ([item], rest) := by
  simp [readItems, hitem, hclose]

theorem readItems_more {item : Json} {items : List Json} {tail more : List Char}
    (hitem : readValue fuel depth cs = some (item, tail)) (hcomma : skipSpacing tail = ',' :: more)
    (hmore : readItems fuel depth more = some (items, rest)) :
    readItems (fuel + 1) depth cs = some (item :: items, rest) := by
  simp [readItems, hitem, hcomma, hmore]

theorem readMembers_last {key : String} {value : Json} {tail : List Char}
    (hvalue : readValue fuel depth cs = some (value, tail))
    (hclose : skipSpacing tail = '\x7d' :: rest) :
    readMembers (fuel + 1) depth ((Quoted.quote key).toList ++ ':' :: cs) =
      some ([(key, value)], rest) := by
  obtain ⟨body, heq, hdecode⟩ := Quoted.exists_decode_quote key (':' :: cs)
  have hquote : skipSpacing ('"' :: body) = '"' :: body := rfl
  have hcolon : skipSpacing (':' :: cs) = ':' :: cs := rfl
  rw [heq]
  simp [readMembers, hquote, hdecode, hcolon, hvalue, hclose]

theorem readMembers_more {key : String} {value : Json} {members : List (String × Json)}
    {tail more : List Char} (hvalue : readValue fuel depth cs = some (value, tail))
    (hcomma : skipSpacing tail = ',' :: more)
    (hmore : readMembers fuel depth more = some (members, rest)) :
    readMembers (fuel + 1) depth ((Quoted.quote key).toList ++ ':' :: cs) =
      some ((key, value) :: members, rest) := by
  obtain ⟨body, heq, hdecode⟩ := Quoted.exists_decode_quote key (':' :: cs)
  have hquote : skipSpacing ('"' :: body) = '"' :: body := rfl
  have hcolon : skipSpacing (':' :: cs) = ':' :: cs := rfl
  rw [heq]
  simp [readMembers, hquote, hdecode, hcolon, hvalue, hcomma, hmore]

/-! ## Parts of a written value -/

/-- The value reads back from what is written of it, at any level and in front of anything. -/
def ReadsBack (layout : Layout) (depth : Nat) (value : Json) : Prop :=
  ∀ level fuel rest, (write layout level value).length < fuel →
    readValue fuel depth ((write layout level value).toList ++ rest) = some (value, rest)

theorem readsBack_of_succ {value : Json}
    (h : ∀ level fuel rest, (write layout level value).length ≤ fuel →
      readValue (fuel + 1) depth ((write layout level value).toList ++ rest) = some (value, rest)) :
    ReadsBack layout depth value := by
  intro level fuel rest hfuel
  obtain ⟨fuel, rfl⟩ := Nat.exists_eq_add_one_of_ne_zero (Nat.ne_zero_of_lt hfuel)
  exact h level fuel rest (Nat.le_of_lt_succ hfuel)

theorem skipSpacing_lineBreak (c : Char) (hc : isSpacing c = false) :
    skipSpacing ((layout.lineBreak level).toList ++ c :: cs) = c :: cs := by
  rw [skipSpacing_append (layout.spaced_lineBreak level), skipSpacing, List.dropWhile_cons, hc]
  rfl

theorem skipSpacing_comma (cs : List Char) : skipSpacing (",".toList ++ cs) = ',' :: cs :=
  rfl

theorem readItems_write {items : List Json} (hnonempty : items ≠ [])
    (hitems : ∀ item ∈ items, ReadsBack layout depth item)
    (hfuel : (Text.joined ("," ++ layout.lineBreak level)
      (writeItems layout level items)).length + 1 < fuel) :
    readItems fuel depth
        ((Text.joined ("," ++ layout.lineBreak level) (writeItems layout level items)).toList ++
          ((layout.lineBreak outer).toList ++ ']' :: rest)) =
      some (items, rest) := by
  -- Each item takes one from the fuel, and the text has a comma or a bracket for it.
  induction items generalizing fuel with
  | nil => exact absurd rfl hnonempty
  | cons item more ih =>
      obtain ⟨fuel, rfl⟩ := Nat.exists_eq_add_one_of_ne_zero (Nat.ne_zero_of_lt hfuel)
      obtain ⟨hitem, hmore⟩ := List.forall_mem_cons.mp hitems
      have hcomma : ",".length = 1 := rfl
      cases more with
      | nil =>
          simp only [writeItems, Text.joined, String.intercalate_singleton] at hfuel ⊢
          exact readItems_last (hitem level fuel _ (by omega)) (skipSpacing_lineBreak ']' rfl)
      | cons next more =>
          simp only [writeItems, Text.joined, String.intercalate_cons_cons, String.length_append,
            String.toList_append, List.append_assoc] at hfuel ih ⊢
          refine readItems_more (hitem level fuel _ (by omega)) (skipSpacing_comma _) ?_
          rw [readItems_congr (skipSpacing_append (layout.spaced_lineBreak level) _)]
          exact ih (by simp) hmore (by omega)

theorem readMembers_write {members : List (String × Json)} (hnonempty : members ≠ [])
    (hmembers : ∀ member ∈ members, ReadsBack layout depth member.2)
    (hfuel : (Text.joined ("," ++ layout.lineBreak level)
      (writeMembers layout level members)).length + 1 < fuel) :
    readMembers fuel depth
        ((Text.joined ("," ++ layout.lineBreak level) (writeMembers layout level members)).toList ++
          ((layout.lineBreak outer).toList ++ '\x7d' :: rest)) =
      some (members, rest) := by
  have hvalue {fuel value} (hback : ReadsBack layout depth value)
      (hfuel : (write layout level value).length < fuel) (tail : List Char) :
      readValue fuel depth
          (layout.gap.toList ++ ((write layout level value).toList ++ tail)) =
        some (value, tail) := by
    rw [readValue_congr (skipSpacing_append layout.spaced_gap _)]
    exact hback level fuel tail hfuel
  induction members generalizing fuel with
  | nil => exact absurd rfl hnonempty
  | cons member more ih =>
      obtain ⟨key, value⟩ := member
      obtain ⟨fuel, rfl⟩ := Nat.exists_eq_add_one_of_ne_zero (Nat.ne_zero_of_lt hfuel)
      have hback : ReadsBack layout depth value := hmembers _ List.mem_cons_self
      have hmore := (List.forall_mem_cons.mp hmembers).2
      have hcomma : ",".length = 1 := rfl
      cases more with
      | nil =>
          simp only [writeMembers, Text.joined, String.intercalate_singleton, String.length_append,
            String.toList_append, List.append_assoc] at hfuel ⊢
          exact readMembers_last (hvalue hback (by omega) _) (skipSpacing_lineBreak '\x7d' rfl)
      | cons next more =>
          simp only [writeMembers, Text.joined, String.intercalate_cons_cons, String.length_append,
            String.toList_append, List.append_assoc] at hfuel ih ⊢
          refine readMembers_more (hvalue hback (by omega) _) (skipSpacing_comma _) ?_
          rw [readMembers_congr (skipSpacing_append (layout.spaced_lineBreak level) _)]
          exact ih (by simp) hmore (by omega)

/-! ## Whole values -/

theorem toList_bracketed {parts : List String} (hnonempty : parts ≠ []) (opening closing : String)
    (rest : List Char) :
    (bracketed layout opening closing level parts).toList ++ rest =
      opening.toList ++ ((layout.lineBreak (level + 1)).toList ++
        ((Text.joined ("," ++ layout.lineBreak (level + 1)) parts).toList ++
          ((layout.lineBreak level).toList ++ (closing.toList ++ rest)))) := by
  rw [bracketed, if_neg (by simpa using hnonempty)]
  simp only [String.toList_append, List.append_assoc]

theorem length_bracketed (layout : Layout) (level : Nat) {parts : List String}
    (hnonempty : parts ≠ []) {opening closing : String} (hopening : opening.length = 1)
    (hclosing : closing.length = 1) :
    (Text.joined ("," ++ layout.lineBreak (level + 1)) parts).length + 2 ≤
      (bracketed layout opening closing level parts).length := by
  rw [bracketed, if_neg (by simpa using hnonempty)]
  simp only [String.length_append]
  omega

theorem readsBack_array {items : List Json} (hitems : ∀ item ∈ items, ReadsBack layout depth item) :
    ReadsBack layout (depth + 1) (.array items) := by
  apply readsBack_of_succ
  intro level fuel rest hfuel
  have hopen (cs : List Char) : "[".toList ++ cs = '[' :: cs := rfl
  have hclose (cs : List Char) : "]".toList ++ cs = ']' :: cs := rfl
  rw [write] at hfuel ⊢
  cases items with
  | nil =>
      rw [writeItems, bracketed, List.isEmpty_nil, if_pos rfl, String.toList_append,
        List.append_assoc, hopen, hclose]
      rfl
  | cons item more =>
      have hparts : writeItems layout (level + 1) (item :: more) ≠ [] := by simp [writeItems]
      have hlength := length_bracketed layout level hparts (rfl : "[".length = 1)
        (rfl : "]".length = 1)
      rw [toList_bracketed hparts, hopen, hclose]
      apply readValue_array
      rw [readItems_congr (skipSpacing_append (layout.spaced_lineBreak (level + 1)) _)]
      exact readItems_write (by simp) hitems (by omega)

theorem readsBack_object {members : List (String × Json)} (hdistinct : (Table.keys members).Nodup)
    (hmembers : ∀ member ∈ members, ReadsBack layout depth member.2) :
    ReadsBack layout (depth + 1) (.object members) := by
  apply readsBack_of_succ
  intro level fuel rest hfuel
  have hopen (cs : List Char) : "\x7b".toList ++ cs = '\x7b' :: cs := rfl
  have hclose (cs : List Char) : "\x7d".toList ++ cs = '\x7d' :: cs := rfl
  rw [write] at hfuel ⊢
  cases members with
  | nil =>
      rw [writeMembers, bracketed, List.isEmpty_nil, if_pos rfl, String.toList_append,
        List.append_assoc, hopen, hclose]
      rfl
  | cons member more =>
      have hparts : writeMembers layout (level + 1) (member :: more) ≠ [] := by simp [writeMembers]
      have hlength := length_bracketed layout level hparts (rfl : "\x7b".length = 1)
        (rfl : "\x7d".length = 1)
      rw [toList_bracketed hparts, hopen, hclose]
      -- Reading builds a table of the members, which distinct keys leave as they are.
      conv_rhs => rw [← Table.ofPairs_eq_self hdistinct]
      apply readValue_object
      rw [readMembers_congr (skipSpacing_append (layout.spaced_lineBreak (level + 1)) _)]
      exact readMembers_write (by simp) hmembers (by omega)

theorem readsBack_string (text : String) : ReadsBack layout depth (.string text) := by
  apply readsBack_of_succ
  intro level fuel rest hfuel
  obtain ⟨body, heq, hdecode⟩ := Quoted.exists_decode_quote text rest
  have hquote : skipSpacing ('"' :: body) = '"' :: body := rfl
  rw [write, heq]
  simp [readValue, hquote, hdecode]

theorem Textual.readsBack {value : Json} (h : Textual depth value) (layout : Layout) :
    ReadsBack layout depth value := by
  induction h with
  | null =>
      apply readsBack_of_succ
      intro level fuel rest hfuel
      rw [write]
      rfl
  | bool value =>
      apply readsBack_of_succ
      intro level fuel rest hfuel
      rw [write]
      cases value with
      | false => rfl
      | true => rfl
  | string text => exact readsBack_string text
  | array _ ih => exact readsBack_array ih
  | object hdistinct _ ih => exact readsBack_object hdistinct ih

/-- A value without numbers reads back from its text, in every layout and with blanks behind it. -/
theorem Textual.read_write {value : Json} (h : Textual nestingLimit value) (layout : Layout)
    {blanks : String} (hblanks : ∀ c ∈ blanks.toList, isSpacing c = true) :
    read (write layout 0 value ++ blanks) = some value := by
  have hvalue := h.readsBack layout 0
    (2 * (write layout 0 value ++ blanks).toList.length + 2) blanks.toList (by
      rw [String.length_toList, String.length_append]
      omega)
  have hend : skipSpacing blanks.toList = [] := by
    have hnil := skipSpacing_append hblanks []
    rwa [List.append_nil] at hnil
  rw [← String.toList_append] at hvalue
  simp only [read, readWithin, hvalue, hend]
  rfl

end EventContract.Json
