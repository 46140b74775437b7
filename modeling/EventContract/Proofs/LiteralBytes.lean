import EventContract.Consumption.Literal
import EventContract.Emission.Literal
import EventContract.Proofs.QuotedText
import Mathlib

/-! # The bytes of a literal

A literal of the emission header is read the way a C++ compiler reads a narrow literal in UTF-8: an
escape is one byte, every other character its bytes in UTF-8. The bytes are those of the literal's
text but for the control characters above ASCII, which are escaped by one byte where UTF-8 has two.
-/

namespace EventContract.Emission

variable {cs rest tail : List Char} {bytes : List UInt8} {c : Char}

/-! ## Reading a literal -/

/-- The byte of a backslash with one character behind it. -/
def simpleEscape? : Char → Option UInt8
  | '\'' => some 0x27
  | '"' => some 0x22
  | '?' => some 0x3F
  | '\\' => some 0x5C
  | 'a' => some 0x07
  | 'b' => some 0x08
  | 'f' => some 0x0C
  | 'n' => some 0x0A
  | 'r' => some 0x0D
  | 't' => some 0x09
  | 'v' => some 0x0B
  | _ => none

def isOctalDigit (c : Char) : Bool :=
  '0' ≤ c && c ≤ '7'

/-- The digits of an octal escape: as many as there are, but no more than three. -/
def octalDigits (cs : List Char) : List Char :=
  (cs.take 3).takeWhile isOctalDigit

def octalValue (digits : List Char) : Nat :=
  digits.foldl (fun value digit => 8 * value + (digit.toNat - '0'.toNat)) 0

/-- The byte of an escape, from behind its backslash, and what follows. An octal escape that is no
byte is refused, and so are escapes by hexadecimal digits. -/
def readEscape : List Char → Option (List UInt8 × List Char)
  | [] => none
  | c :: rest =>
    match simpleEscape? c with
    | some byte => some ([byte], rest)
    | none =>
      let digits := octalDigits (c :: rest)
      if digits = [] ∨ 256 ≤ octalValue digits then none
      else some ([UInt8.ofNat (octalValue digits)], (c :: rest).drop digits.length)

/-- What stands first between the quotes, as bytes, and what follows. Neither a quote nor a line
feed stands there. -/
def readItem : List Char → Option (List UInt8 × List Char)
  | [] => none
  | c :: rest =>
    if c = '\\' then readEscape rest
    else if c = '"' ∨ c = '\n' then none
    else some (String.utf8EncodeChar c, rest)

theorem length_le_of_readEscape (h : readEscape cs = some (bytes, rest)) :
    rest.length ≤ cs.length := by
  cases cs with
  | nil => cases h
  | cons c more =>
      simp only [readEscape] at h
      split at h
      next =>
        cases h
        exact Nat.le_succ _
      next =>
        split at h
        next => cases h
        next =>
          cases h
          exact (List.drop_sublist _ _).length_le

theorem length_lt_of_readItem (h : readItem cs = some (bytes, rest)) :
    rest.length < cs.length := by
  cases cs with
  | nil => cases h
  | cons c more =>
      rw [readItem] at h
      split_ifs at h
      · exact Nat.lt_succ_of_le (length_le_of_readEscape h)
      · cases h
        exact Nat.lt_succ_self _

/-- The bytes up to the closing quote, and what follows it. -/
def readInside : List Char → Option (List UInt8 × List Char)
  | '"' :: rest => some ([], rest)
  | cs =>
    match _hitem : readItem cs with
    | none => none
    | some (bytes, rest) => (readInside rest).map fun (more, rest) => (bytes ++ more, rest)
termination_by cs => cs.length
decreasing_by exact length_lt_of_readItem _hitem

/-- The bytes of a literal, and what follows it. -/
def readLiteral : List Char → Option (List UInt8 × List Char)
  | '"' :: rest => readInside rest
  | _ => none

theorem readInside_of_readItem (h : readItem cs = some (bytes, rest)) :
    readInside cs = (readInside rest).map fun (more, rest) => (bytes ++ more, rest) := by
  rw [readInside.eq_def]
  split
  next =>
    simp [readItem] at h
  next =>
    split
    next hnone => rw [h] at hnone; cases hnone
    next hsome =>
      rw [h] at hsome
      cases hsome
      rfl

/-! ## One character -/

/-- A control character of the second set, which lies above ASCII. -/
def IsC1Control (c : Char) : Prop := 0x80 ≤ c.toNat ∧ c.toNat ≤ 0x9F

instance : DecidablePred IsC1Control :=
  fun c => inferInstanceAs (Decidable (0x80 ≤ c.toNat ∧ c.toNat ≤ 0x9F))

/-- What a character comes to in a literal: its bytes in UTF-8, or the one byte of its escape. -/
def literalBytes (c : Char) : List UInt8 :=
  if IsC1Control c then [UInt8.ofNat c.toNat] else String.utf8EncodeChar c

theorem readEscape_octal (hcontrol : Text.isControl c = true) (tail : List Char) :
    readEscape (octalDigit (c.toNat / 64) :: octalDigit (c.toNat / 8) :: octalDigit c.toNat ::
      tail) = some ([UInt8.ofNat c.toNat], tail) := by
  have hbound : c.toNat ≤ 0x9F := by
    rw [Text.isControl_iff] at hcontrol
    omega
  have hescape (n : Nat) : simpleEscape? (octalDigit n) = none := by
    have hall : ∀ k < 8, simpleEscape? (Nat.digitChar k) = none := by decide
    exact hall _ (Nat.mod_lt _ (by decide))
  have hoctal (n : Nat) : isOctalDigit (octalDigit n) = true := by
    have hall : ∀ k < 8, isOctalDigit (Nat.digitChar k) = true := by decide
    exact hall _ (Nat.mod_lt _ (by decide))
  have hdigits : octalDigits (octalDigit (c.toNat / 64) :: octalDigit (c.toNat / 8) ::
      octalDigit c.toNat :: tail) =
        [octalDigit (c.toNat / 64), octalDigit (c.toNat / 8), octalDigit c.toNat] := by
    simp [octalDigits, hoctal]
  have hvalue : octalValue [octalDigit (c.toNat / 64), octalDigit (c.toNat / 8),
      octalDigit c.toNat] = c.toNat := by
    have hzero : '0'.toNat = 48 := rfl
    simp only [octalValue, List.foldl_cons, List.foldl_nil, toNat_octalDigit, hzero]
    omega
  have hbyte : ¬ 256 ≤ c.toNat := by omega
  simp [readEscape, hescape, hdigits, hvalue, hbyte]

theorem utf8EncodeChar_of_ascii (h : c.toNat ≤ 0x7F) :
    String.utf8EncodeChar c = [UInt8.ofNat c.toNat] :=
  if_pos h

theorem literalBytes_of_isControl (hcontrol : Text.isControl c = true) :
    literalBytes c = [UInt8.ofNat c.toNat] := by
  unfold literalBytes
  split
  next => rfl
  next hearly =>
    apply utf8EncodeChar_of_ascii
    rw [Text.isControl_iff] at hcontrol
    rw [IsC1Control] at hearly
    omega

/-- One character of the text is read as its bytes, whatever follows. -/
theorem readItem_literalChar (c : Char) (tail : List Char) :
    readItem (literalChar c ++ tail) = some (literalBytes c, tail) := by
  unfold literalChar
  split_ifs with hquote hslash hfeed hreturn htab hcontrol
  · subst hquote
    rfl
  · subst hslash
    rfl
  · subst hfeed
    rfl
  · subst hreturn
    rfl
  · subst htab
    rfl
  · rw [literalBytes_of_isControl hcontrol]
    exact readEscape_octal hcontrol tail
  · have hearly : ¬ IsC1Control c := by
      intro hsecond
      rw [Text.isControl_iff] at hcontrol
      rw [IsC1Control] at hsecond
      omega
    simp [readItem, literalBytes, hquote, hslash, hfeed, hearly]

theorem ofNat_ne_ofNat {m n : Nat} (hm : m < 256) (hn : n < 256) (hne : m ≠ n) :
    UInt8.ofNat m ≠ UInt8.ofNat n := by
  intro heq
  have hnat := congrArg UInt8.toNat heq
  rw [UInt8.toNat_ofNat_of_lt' hm, UInt8.toNat_ofNat_of_lt' hn] at hnat
  exact hne hnat

theorem zero_ne_ofNat {n : Nat} (hlow : n ≠ 0) (hhigh : n < 256) : 0 ≠ UInt8.ofNat n :=
  ofNat_ne_ofNat (by decide) hhigh hlow.symm

/-- The escape of a control character above ASCII differs from its UTF-8 in the first byte. -/
theorem literalBytes_append_ne (hsecond : IsC1Control c) (more others : List UInt8) :
    literalBytes c ++ more ≠ String.utf8EncodeChar c ++ others := by
  obtain ⟨hlow, hhigh⟩ := hsecond
  have hvalue : c.val.toNat = c.toNat := rfl
  have hutf8 : String.utf8EncodeChar c =
      [UInt8.ofNat (c.toNat / 64 % 32 + 0xC0), UInt8.ofNat (c.toNat % 64 + 0x80)] := by
    simp only [String.utf8EncodeChar, hvalue]
    rw [if_neg (by omega), if_pos (by omega)]
  rw [literalBytes, if_pos ⟨hlow, hhigh⟩, hutf8]
  intro heq
  exact ofNat_ne_ofNat (by omega) (by omega) (by omega) (List.cons.inj heq).1

theorem zero_not_mem_utf8EncodeChar (hzero : c ≠ '\x00') : 0 ∉ String.utf8EncodeChar c := by
  have hpos : c.toNat ≠ 0 := fun heq => hzero (Char.toNat_inj.mp heq)
  have hvalue : c.val.toNat = c.toNat := rfl
  simp only [String.utf8EncodeChar, hvalue]
  split_ifs
  all_goals
    simp only [List.mem_cons, List.not_mem_nil, or_false, not_or]
  · exact zero_ne_ofNat hpos (by omega)
  · exact ⟨zero_ne_ofNat (by omega) (by omega), zero_ne_ofNat (by omega) (by omega)⟩
  · exact ⟨zero_ne_ofNat (by omega) (by omega), zero_ne_ofNat (by omega) (by omega),
      zero_ne_ofNat (by omega) (by omega)⟩
  · exact ⟨zero_ne_ofNat (by omega) (by omega), zero_ne_ofNat (by omega) (by omega),
      zero_ne_ofNat (by omega) (by omega), zero_ne_ofNat (by omega) (by omega)⟩

theorem zero_not_mem_literalBytes (hzero : c ≠ '\x00') : 0 ∉ literalBytes c := by
  unfold literalBytes
  split
  next hsecond =>
    obtain ⟨hlow, hhigh⟩ := hsecond
    rw [List.mem_singleton]
    exact zero_ne_ofNat (by omega) (by omega)
  next => exact zero_not_mem_utf8EncodeChar hzero

/-! ## Whole literals -/

theorem readInside_literal (cs tail : List Char) :
    readInside (cs.flatMap literalChar ++ '"' :: tail) = some (cs.flatMap literalBytes, tail) := by
  induction cs with
  | nil => simp [readInside]
  | cons c cs ih =>
      rw [List.flatMap_cons, List.append_assoc,
        readInside_of_readItem (readItem_literalChar c _), ih]
      rfl

theorem readLiteral_literal (text : String) (tail : List Char) :
    readLiteral ((literal text).toList ++ tail) =
      some (text.toList.flatMap literalBytes, tail) := by
  have hchars : (literal text).toList ++ tail =
      '"' :: (text.toList.flatMap literalChar ++ '"' :: tail) := by
    simp [literal, literalChars]
  rw [hchars, readLiteral, readInside_literal]

theorem flatMap_literalBytes_eq_iff (cs : List Char) :
    cs.flatMap literalBytes = cs.flatMap String.utf8EncodeChar ↔ ∀ c ∈ cs, ¬ IsC1Control c := by
  induction cs with
  | nil => simp
  | cons c cs ih =>
      rw [List.flatMap_cons, List.flatMap_cons, List.forall_mem_cons]
      by_cases hsecond : IsC1Control c
      · exact iff_of_false (literalBytes_append_ne hsecond _ _) fun h => h.1 hsecond
      · rw [literalBytes, if_neg hsecond, List.append_cancel_left_eq, ih]
        exact (and_iff_right hsecond).symm

theorem toList_toUTF8 (text : String) :
    text.toUTF8.data.toList = text.toList.flatMap String.utf8EncodeChar := by
  obtain ⟨cs, rfl⟩ : ∃ cs, text = String.ofList cs := ⟨text.toList, by simp⟩
  rw [String.toUTF8_eq_toByteArray, String.toByteArray_ofList, String.toList_ofList]
  exact List.toList_data_toByteArray

/-- What a string holds that is taken from the address of a literal: the bytes before a zero. -/
def beforeZero (bytes : List UInt8) : List UInt8 :=
  bytes.takeWhile (· ≠ 0)

theorem beforeZero_eq_iff (cs : List Char) :
    beforeZero (cs.flatMap literalBytes) = cs.flatMap String.utf8EncodeChar ↔
      ∀ c ∈ cs, c ≠ '\x00' ∧ ¬ IsC1Control c := by
  have hzero_of_mem : '\x00' ∈ cs → 0 ∈ cs.flatMap String.utf8EncodeChar :=
    fun hmem => List.mem_flatMap.mpr ⟨_, hmem, by decide⟩
  by_cases hmem : '\x00' ∈ cs
  · refine iff_of_false (fun heq => ?_) fun h => (h _ hmem).1 rfl
    have hzero := hzero_of_mem hmem
    rw [← heq] at hzero
    simpa using List.mem_takeWhile_imp hzero
  · have hnone : ∀ c ∈ cs, c ≠ '\x00' := fun c hc heq => hmem (heq ▸ hc)
    have hall : beforeZero (cs.flatMap literalBytes) = cs.flatMap literalBytes := by
      refine List.takeWhile_eq_self_iff.mpr fun byte hbyte => ?_
      obtain ⟨c, hc, hmem⟩ := List.mem_flatMap.mp hbyte
      refine decide_eq_true fun heq => ?_
      exact zero_not_mem_literalBytes (hnone c hc) (heq ▸ hmem)
    rw [hall, flatMap_literalBytes_eq_iff]
    exact forall₂_congr fun c hc => (and_iff_right (hnone c hc)).symm

/-- Whatever follows a literal of the header, it is read to its end, as bytes that are the text's
UTF-8 exactly if no character is a control character above ASCII. A string taken from it holds the
whole text exactly if there is no null character either. The literal of the consumption module is
read as the text in any case. -/
theorem literal_bytes_iff (text : String) :
    ∃ bytes, (∀ tail, readLiteral ((literal text).toList ++ tail) = some (bytes, tail)) ∧
      (bytes = text.toUTF8.data.toList ↔ ∀ c ∈ text.toList, ¬ IsC1Control c) ∧
      (beforeZero bytes = text.toUTF8.data.toList ↔
        ∀ c ∈ text.toList, c ≠ '\x00' ∧ ¬ IsC1Control c) ∧
      ∀ tail, ∃ body, (Consumption.literal text).toList ++ tail = '"' :: body ∧
        Json.Quoted.decode body = some (text.toList, tail) := by
  refine ⟨text.toList.flatMap literalBytes, readLiteral_literal text, ?_, ?_, ?_⟩
  · rw [toList_toUTF8, flatMap_literalBytes_eq_iff]
  · rw [toList_toUTF8, beforeZero_eq_iff]
  · exact Json.Quoted.exists_decode_quote text

/-- The next-line character is sent as the byte 85, while the other side listens for its UTF-8. -/
theorem literal_bytes_ne_utf8 :
    readLiteral (literal "a\u0085b").toList = some ([0x61, 0x85, 0x62], []) ∧
      [0x61, 0x85, 0x62] ≠ "a\u0085b".toUTF8.data.toList := by
  have hread := readLiteral_literal "a\u0085b" []
  rw [List.append_nil] at hread
  rw [hread, toList_toUTF8]
  decide

end EventContract.Emission
