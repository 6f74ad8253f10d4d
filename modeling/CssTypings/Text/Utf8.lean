import CssTypings.Text.Basic

/-!
# Texts as bytes

Files hold texts in UTF-8. Reading is strict: overlong forms, surrogates and code points out of
range are refused, and a refusal says which bytes it is about. The bytes of a character are checked
one after the other, and the first one that cannot continue it ends the check; how the second byte
is limited depends on the first.
-/

namespace CssTypings

/-- The contents of a file. -/
abbrev Bytes := List UInt8

namespace Utf8

/-- Why a text cannot be read. -/
inductive Reason where
  /-- A byte that starts no character. -/
  | invalidStart
  /-- A byte that does not continue the character in front of it. -/
  | invalidContinuation
  /-- The bytes end inside a character. -/
  | unexpectedEnd
deriving DecidableEq, Repr

/-- The wording of a reason. -/
def Reason.message : Reason → String
  | invalidStart => "invalid start byte"
  | invalidContinuation => "invalid continuation byte"
  | unexpectedEnd => "unexpected end of data"

/-- The bytes that cannot be read. -/
structure Fault where
  reason : Reason
  /-- The first byte. -/
  byte : UInt8
  /-- Its position. -/
  start : Nat
  /-- The position behind the last byte. -/
  stop : Nat
deriving DecidableEq, Repr

/-- The wording of a fault. -/
def Fault.message (fault : Fault) : String :=
  let place :=
    if fault.stop = fault.start + 1 then
      "byte 0x" ++ String.ofList (Text.hex 2 fault.byte.toNat) ++ " in position " ++
        String.ofList (Text.decimal fault.start)
    else
      "bytes in position " ++ String.ofList (Text.decimal fault.start) ++ "-" ++
        String.ofList (Text.decimal (fault.stop - 1))
  "'utf-8' codec can't decode " ++ place ++ ": " ++ fault.reason.message

/-- A character of which some bytes were read. -/
structure Pending where
  /-- The first byte and its position. -/
  byte : UInt8
  start : Nat
  /-- The bits read so far. -/
  bits : Nat
  /-- How many bytes are missing after the next one. -/
  missing : Nat
  /-- The least and the greatest value of the next byte. -/
  low : Nat
  high : Nat
deriving DecidableEq, Repr

/-- What the first byte of a character asks for; a byte of ASCII asks for nothing. -/
def lead? (byte : UInt8) (start : Nat) : Option Pending :=
  let b := byte.toNat
  if b < 0xC2 then none
  else if b < 0xE0 then some ⟨byte, start, b - 0xC0, 0, 0x80, 0xBF⟩
  else if b = 0xE0 then some ⟨byte, start, 0, 1, 0xA0, 0xBF⟩
  else if b = 0xED then some ⟨byte, start, 0xD, 1, 0x80, 0x9F⟩
  else if b < 0xF0 then some ⟨byte, start, b - 0xE0, 1, 0x80, 0xBF⟩
  else if b = 0xF0 then some ⟨byte, start, 0, 2, 0x90, 0xBF⟩
  else if b < 0xF4 then some ⟨byte, start, b - 0xF0, 2, 0x80, 0xBF⟩
  else if b = 0xF4 then some ⟨byte, start, 4, 2, 0x80, 0x8F⟩
  else none

/-- The text of bytes that start at a position, possibly inside a character. -/
def decodeFrom : (position : Nat) → Option Pending → Bytes → Except Fault Text
  | _, none, [] => .ok []
  | position, some p, [] => .error ⟨.unexpectedEnd, p.byte, p.start, position⟩
  | position, none, byte :: rest =>
    if byte.toNat < 0x80 then
      (decodeFrom (position + 1) none rest).map (Char.ofNat byte.toNat :: ·)
    else
      match lead? byte position with
      | some p => decodeFrom (position + 1) (some p) rest
      | none => .error ⟨.invalidStart, byte, position, position + 1⟩
  | position, some p, byte :: rest =>
    if p.low ≤ byte.toNat ∧ byte.toNat ≤ p.high then
      let bits := p.bits * 0x40 + (byte.toNat - 0x80)
      match p.missing with
      | 0 => (decodeFrom (position + 1) none rest).map (Char.ofNat bits :: ·)
      | missing + 1 =>
        decodeFrom (position + 1) (some ⟨p.byte, p.start, bits, missing, 0x80, 0xBF⟩) rest
    else .error ⟨.invalidContinuation, p.byte, p.start, position⟩

/-- The text that bytes hold. -/
def decode (bytes : Bytes) : Except Fault Text := decodeFrom 0 none bytes

/-- The text of the bytes in front of the first that cannot be read. -/
def decodePrefix (bytes : Bytes) : Text :=
  match decode bytes with
  | .ok t => t
  | .error fault => (decode (bytes.take fault.start)).toOption.getD []

/-- The bytes of a text. -/
def encode (t : Text) : Bytes := t.flatMap String.utf8EncodeChar

/-- The number of bytes of a text. -/
def size (t : Text) : Nat := (encode t).length

end Utf8

end CssTypings
