import LetLang.Text.Hex

/-
  Strict reading of UTF-8, which accepts the shortest form
  of each character only and says where a text goes wrong.

  Bytes are read one at a time. Between characters the
  reader waits for a lead byte; inside one it knows how many
  continuation bytes are missing and in which range the next
  of them has to lie.

  Key definitions include:
    * `Text.Utf8.Failure`
    * `Text.Utf8.Failure.message`
    * `Text.Utf8.Reader`
    * `Text.Utf8.Reader.step`
    * `Text.Utf8.decode`
-/

namespace LetLang

namespace Text.Utf8

------------------------------------------------------------
-- Failures
------------------------------------------------------------

/- Why a byte sequence is not UTF-8. -/
inductive Reason where
  | invalidStart
  | invalidContinuation
  | unexpectedEnd
  deriving DecidableEq, Repr

namespace Reason

/- The words for a reason. -/
def describe : Reason → String
  | .invalidStart => "invalid start byte"
  | .invalidContinuation => "invalid continuation byte"
  | .unexpectedEnd => "unexpected end of data"

end Reason

/-
  The bytes that could not be read: the first of them, its
  offset in the input, and how many there are.
-/
structure Failure where
  byte : UInt8
  position : Nat
  count : Nat
  reason : Reason
  deriving DecidableEq, Repr

namespace Failure

/- Where the bytes lie. A single byte is shown as well. -/
def place
    (failure : Failure) : String :=
  if failure.count = 1 then
    "byte 0x"
      ++ String.ofList (hex 2 failure.byte.toNat)
      ++ " in position " ++ toString failure.position
  else
    "bytes in position " ++ toString failure.position
      ++ "-"
      ++ toString (failure.position + failure.count - 1)

/- The report on bytes that are not UTF-8. -/
def message
    (failure : Failure) : String :=
  "'utf-8' codec can't decode " ++ failure.place
    ++ ": " ++ failure.reason.describe

end Failure

------------------------------------------------------------
-- Lead Bytes
------------------------------------------------------------

/-
  What a lead byte announces: the number of continuation
  bytes, the high bits of the character, and the range of
  the first continuation byte.
-/
structure Lead where
  missing : Nat
  bits : Nat
  low : UInt8
  high : UInt8
  deriving DecidableEq, Repr

/-
  The lead bytes. The narrowed ranges after 0xe0, 0xed, 0xf0
  and 0xf4 keep out longer forms, surrogates and code points
  that are too large.
-/
def lead?
    (byte : UInt8) : Option Lead :=
  if byte < 0x80 then
    some ⟨0, byte.toNat, 0x80, 0xbf⟩
  else if byte < 0xc2 then
    none
  else if byte < 0xe0 then
    some ⟨1, byte.toNat - 0xc0, 0x80, 0xbf⟩
  else if byte < 0xf0 then
    some ⟨2, byte.toNat - 0xe0,
      if byte = 0xe0 then 0xa0 else 0x80,
      if byte = 0xed then 0x9f else 0xbf⟩
  else if byte < 0xf5 then
    some ⟨3, byte.toNat - 0xf0,
      if byte = 0xf0 then 0x90 else 0x80,
      if byte = 0xf4 then 0x8f else 0xbf⟩
  else
    none

------------------------------------------------------------
-- Reading
------------------------------------------------------------

/-
  A character of which some bytes have been read: its lead
  byte, the number of bytes read and missing, the bits so
  far, and the range of the next byte.
-/
structure Progress where
  first : UInt8
  count : Nat
  missing : Nat
  bits : Nat
  low : UInt8
  high : UInt8
  deriving DecidableEq, Repr

/-
  The state of the reader: the characters read, latest
  first, the character in progress, and the number of bytes
  read.
-/
structure Reader where
  decoded : List Char
  pending : Option Progress
  position : Nat
  deriving DecidableEq, Repr

namespace Reader

/- The reader before the first byte. -/
def start : Reader :=
  ⟨[], none, 0⟩

/-
  Take a byte as part of the current character. The
  character is complete when no byte is missing any more.
-/
def accept
    (reader : Reader)
    (progress : Progress) : Reader :=
  if progress.missing = 0 then
    ⟨Char.ofNat progress.bits :: reader.decoded, none,
      reader.position + 1⟩
  else
    ⟨reader.decoded, some progress, reader.position + 1⟩

/- The report on the character in progress. -/
def failure
    (reader : Reader)
    (progress : Progress)
    (reason : Reason) : Failure :=
  ⟨progress.first, reader.position - progress.count,
    progress.count, reason⟩

/- Read one byte. -/
def step
    (reader : Reader)
    (byte : UInt8) : Except Failure Reader :=
  match reader.pending with
  | none =>
      match lead? byte with
      | none =>
          .error ⟨byte, reader.position, 1, .invalidStart⟩
      | some lead =>
          .ok (reader.accept
            ⟨byte, 1, lead.missing, lead.bits,
              lead.low, lead.high⟩)
  | some progress =>
      if progress.low ≤ byte ∧ byte ≤ progress.high then
        .ok (reader.accept
          ⟨progress.first, progress.count + 1,
            progress.missing - 1,
            progress.bits * 64 + (byte.toNat - 0x80),
            0x80, 0xbf⟩)
      else
        .error (reader.failure progress
          .invalidContinuation)

/- The text read, unless a character is incomplete. -/
def finish
    (reader : Reader) : Except Failure (List Char) :=
  match reader.pending with
  | none => .ok reader.decoded.reverse
  | some progress =>
      .error (reader.failure progress .unexpectedEnd)

end Reader

/- The text that a byte sequence encodes. -/
def decode
    (bytes : List UInt8) : Except Failure (List Char) := do
  let reader ← bytes.foldlM Reader.step Reader.start
  reader.finish

end Text.Utf8

end LetLang
