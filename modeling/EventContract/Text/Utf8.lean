/-!
# Reading UTF-8

Bytes are read as UTF-8 or refused with the place of the first fault: how long the valid text
before it is, and how many bytes the ill-formed sequence has. A sequence that the end of the input
cuts short is incomplete and has no length of its own.
-/

namespace EventContract.Text.Utf8

/-- Where bytes stop being UTF-8. -/
structure Fault where
  /-- Number of bytes before the fault, all of them valid. -/
  validUpTo : Nat
  /-- Number of bytes of the ill-formed sequence; none when the input ends within it. -/
  length : Option Nat
  deriving DecidableEq, Repr

/-- The fault in words. -/
def Fault.message (f : Fault) : String :=
  match f.length with
  | some n => "invalid utf-8 sequence of " ++ toString n ++ " bytes from index " ++
      toString f.validUpTo
  | none => "incomplete utf-8 byte sequence from index " ++ toString f.validUpTo

/-- A byte that may continue a sequence. -/
def isContinuation (b : UInt8) : Bool :=
  0x80 ≤ b && b ≤ 0xBF

/-- The bytes that may follow `lead`, the first byte of a sequence of three. -/
def isSecondOfThree (lead second : UInt8) : Bool :=
  if lead == 0xE0 then 0xA0 ≤ second && second ≤ 0xBF
  else if lead == 0xED then 0x80 ≤ second && second ≤ 0x9F
  else isContinuation second

/-- The bytes that may follow `lead`, the first byte of a sequence of four. -/
def isSecondOfFour (lead second : UInt8) : Bool :=
  if lead == 0xF0 then 0x90 ≤ second && second ≤ 0xBF
  else if lead == 0xF4 then 0x80 ≤ second && second ≤ 0x8F
  else isContinuation second

/-- The low six bits of a continuation byte. -/
def tailBits (b : UInt8) : Nat :=
  b.toNat % 64

/-- Reads the bytes from index `start` on. -/
def decodeFrom (start : Nat) : List UInt8 → Except Fault (List Char)
  | [] => .ok []
  | a :: rest =>
    if a < 0x80 then
      (decodeFrom (start + 1) rest).map (Char.ofNat a.toNat :: ·)
    else if 0xC2 ≤ a && a ≤ 0xDF then
      match rest with
      | [] => .error ⟨start, none⟩
      | b :: rest =>
        if isContinuation b then
          (decodeFrom (start + 2) rest).map (Char.ofNat (a.toNat % 32 * 64 + tailBits b) :: ·)
        else .error ⟨start, some 1⟩
    else if 0xE0 ≤ a && a ≤ 0xEF then
      match rest with
      | [] => .error ⟨start, none⟩
      | b :: rest =>
        if isSecondOfThree a b then
          match rest with
          | [] => .error ⟨start, none⟩
          | c :: rest =>
            if isContinuation c then
              (decodeFrom (start + 3) rest).map
                (Char.ofNat ((a.toNat % 16 * 64 + tailBits b) * 64 + tailBits c) :: ·)
            else .error ⟨start, some 2⟩
        else .error ⟨start, some 1⟩
    else if 0xF0 ≤ a && a ≤ 0xF4 then
      match rest with
      | [] => .error ⟨start, none⟩
      | b :: rest =>
        if isSecondOfFour a b then
          match rest with
          | [] => .error ⟨start, none⟩
          | c :: rest =>
            if isContinuation c then
              match rest with
              | [] => .error ⟨start, none⟩
              | d :: rest =>
                if isContinuation d then
                  (decodeFrom (start + 4) rest).map
                    (Char.ofNat (((a.toNat % 8 * 64 + tailBits b) * 64 + tailBits c) * 64 +
                      tailBits d) :: ·)
                else .error ⟨start, some 3⟩
            else .error ⟨start, some 2⟩
        else .error ⟨start, some 1⟩
    else .error ⟨start, some 1⟩

/-- The text that bytes spell in UTF-8. -/
def decode (bytes : ByteArray) : Except Fault String :=
  (decodeFrom 0 bytes.toList).map String.ofList

end EventContract.Text.Utf8
