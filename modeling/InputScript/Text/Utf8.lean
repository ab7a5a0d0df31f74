import InputScript.Text.Blank

/-!
# UTF-8

Scripts and the output of child processes are bytes. Decoding either gives the characters or the
first fault, told apart by what is wrong at that place: a byte that starts nothing, a byte that
does not continue what was started, or an end in the middle of a character.
-/

namespace InputScript.Text

/-- What is wrong with a byte string that is not UTF-8. -/
inductive Utf8Fault
  | start
  | continuation
  | truncated
deriving DecidableEq, Repr

/-- The reason given to the user. -/
def Utf8Fault.reason : Utf8Fault → String
  | .start => "invalid start byte"
  | .continuation => "invalid continuation byte"
  | .truncated => "unexpected end of data"

/-- The bytes that may follow a lead byte directly; overlong forms, surrogates and values above
`U+10FFFF` are excluded here, so the later bytes need no further check. -/
def secondByteRange (lead : Nat) : Nat × Nat :=
  if lead == 0xE0 then (0xA0, 0xBF)
  else if lead == 0xED then (0x80, 0x9F)
  else if lead == 0xF0 then (0x90, 0xBF)
  else if lead == 0xF4 then (0x80, 0x8F)
  else (0x80, 0xBF)

/-- How many bytes follow a lead byte, and its payload bits; `none` if it starts nothing. -/
def leadByte? (lead : Nat) : Option (Nat × Nat) :=
  if lead < 0x80 then some (0, lead)
  else if 0xC2 ≤ lead && lead ≤ 0xDF then some (1, lead - 0xC0)
  else if 0xE0 ≤ lead && lead ≤ 0xEF then some (2, lead - 0xE0)
  else if 0xF0 ≤ lead && lead ≤ 0xF4 then some (3, lead - 0xF0)
  else none

/-- Adds one continuation byte within the given range to the value read so far. -/
def continueChar (range : Nat × Nat) (value : Nat) (byte : UInt8) : Except Utf8Fault Nat :=
  if range.1 ≤ byte.toNat && byte.toNat ≤ range.2 then .ok (value * 64 + (byte.toNat - 0x80))
  else .error .continuation

/-- Decodes a byte string. -/
def decodeUtf8 : List UInt8 → Except Utf8Fault (List Char)
  | [] => .ok []
  | b0 :: rest =>
    match leadByte? b0.toNat with
    | none => .error .start
    | some (0, v) => do
      let cs ← decodeUtf8 rest
      return Char.ofNat v :: cs
    | some (1, v) =>
      match rest with
      | b1 :: rest' => do
        let v ← continueChar (secondByteRange b0.toNat) v b1
        let cs ← decodeUtf8 rest'
        return Char.ofNat v :: cs
      | [] => .error .truncated
    | some (2, v) =>
      match rest with
      | b1 :: b2 :: rest' => do
        let v ← continueChar (secondByteRange b0.toNat) v b1
        let v ← continueChar (0x80, 0xBF) v b2
        let cs ← decodeUtf8 rest'
        return Char.ofNat v :: cs
      | [b1] => do
        let _ ← continueChar (secondByteRange b0.toNat) v b1
        .error .truncated
      | [] => .error .truncated
    | some (_, v) =>
      match rest with
      | b1 :: b2 :: b3 :: rest' => do
        let v ← continueChar (secondByteRange b0.toNat) v b1
        let v ← continueChar (0x80, 0xBF) v b2
        let v ← continueChar (0x80, 0xBF) v b3
        let cs ← decodeUtf8 rest'
        return Char.ofNat v :: cs
      | [b1, b2] => do
        let v ← continueChar (secondByteRange b0.toNat) v b1
        let _ ← continueChar (0x80, 0xBF) v b2
        .error .truncated
      | [b1] => do
        let _ ← continueChar (secondByteRange b0.toNat) v b1
        .error .truncated
      | [] => .error .truncated

/-- The bytes of a text. -/
def encodeUtf8 (cs : List Char) : List UInt8 :=
  cs.flatMap String.utf8EncodeChar

/-- The character whose lead byte was read, and what follows it. The replacement character stands for
as many of its bytes as there are. -/
def restOfChar : Nat → Nat × Nat → Nat → List UInt8 → Char × List UInt8
  | 0, _, value, rest => (Char.ofNat value, rest)
  | _ + 1, _, _, [] => ('\ufffd', [])
  | count + 1, range, value, byte :: rest =>
    match continueChar range value byte with
    | .ok value => restOfChar count (0x80, 0xBF) value rest
    | .error _ => ('\ufffd', byte :: rest)

theorem length_restOfChar_le (count : Nat) (range : Nat × Nat) (value : Nat) (rest : List UInt8) :
    (restOfChar count range value rest).2.length ≤ rest.length := by
  fun_induction restOfChar count range value rest with
  | case3 count range value byte rest next hnext ih => exact Nat.le_succ_of_le ih
  | case1 | case2 | case4 => exact Nat.le_refl _

/-- Decodes a byte string, with the replacement character for whatever is not UTF-8. -/
def decodeLossy : List UInt8 → List Char
  | [] => []
  | lead :: rest =>
    match leadByte? lead.toNat with
    | none => '\ufffd' :: decodeLossy rest
    | some (count, value) =>
      let next := restOfChar count (secondByteRange lead.toNat) value rest
      next.1 :: decodeLossy next.2
termination_by bytes => bytes.length
decreasing_by
  · exact Nat.lt_succ_self _
  · exact Nat.lt_succ_of_le (length_restOfChar_le _ _ _ _)

end InputScript.Text
