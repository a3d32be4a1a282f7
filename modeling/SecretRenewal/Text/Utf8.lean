/-
This file reads bytes as text. A character takes one to four bytes; the first byte says how
many follow and, for some, narrows the range of the second, so that no character has two
encodings and no half of a surrogate pair has one. Reading is strict, where a wrong byte
refuses the whole, or lenient, where each longest wrong piece becomes one replacement
character. Both readings take the bytes one at a time through the same machine.
-/

namespace SecretRenewal.Text

/-- A character whose last bytes are still to come. -/
structure Partial where
  /-- How many bytes are missing. -/
  missing : Nat
  /-- The bits so far. -/
  code : Nat
  /-- The least byte that may come next. -/
  lowest : UInt8
  /-- The greatest byte that may come next. -/
  highest : UInt8
  deriving DecidableEq

/-- What one more byte makes of the bytes so far. -/
inductive ByteOutcome
  /-- A character is complete. -/
  | complete (char : Char)
  /-- A character has begun or goes on. -/
  | unfinished (piece : Partial)
  /-- The byte cannot begin a character. -/
  | stray
  deriving DecidableEq

/-- The first byte of a character. -/
def firstByte (byte : UInt8) : ByteOutcome :=
  if byte < 0x80 then .complete (Char.ofNat byte.toNat)
  else if byte < 0xc2 then .stray
  else if byte < 0xe0 then .unfinished ⟨1, byte.toNat - 0xc0, 0x80, 0xbf⟩
  else if byte < 0xf0 then
    .unfinished ⟨2, byte.toNat - 0xe0, if byte = 0xe0 then 0xa0 else 0x80,
      if byte = 0xed then 0x9f else 0xbf⟩
  else if byte < 0xf5 then
    .unfinished ⟨3, byte.toNat - 0xf0, if byte = 0xf0 then 0x90 else 0x80,
      if byte = 0xf4 then 0x8f else 0xbf⟩
  else .stray

/-- A further byte of a character; none when it cannot follow. -/
def nextByte? (piece : Partial) (byte : UInt8) : Option ByteOutcome :=
  if piece.lowest ≤ byte ∧ byte ≤ piece.highest then
    let code := piece.code * 64 + (byte.toNat - 0x80)
    if piece.missing ≤ 1 then some (.complete (Char.ofNat code))
    else some (.unfinished ⟨piece.missing - 1, code, 0x80, 0xbf⟩)
  else none

/-- The characters of bytes read after an unfinished piece, if every byte is right. -/
def decodeAfter? : Option Partial → List UInt8 → Option (List Char)
  | none, [] => some []
  | some _, [] => none
  | none, byte :: rest =>
    match firstByte byte with
    | .complete char => (decodeAfter? none rest).map (char :: ·)
    | .unfinished piece => decodeAfter? (some piece) rest
    | .stray => none
  | some piece, byte :: rest =>
    match nextByte? piece byte with
    | some (.complete char) => (decodeAfter? none rest).map (char :: ·)
    | some (.unfinished piece) => decodeAfter? (some piece) rest
    | _ => none

/-- The text that bytes encode, if they encode one. -/
def decode? (bytes : List UInt8) : Option String :=
  (decodeAfter? none bytes).map String.ofList

/-- What stands for bytes that encode no character. -/
def replacement : Char := '\ufffd'

/-- The characters of bytes read after an unfinished piece, each longest wrong piece
replaced. -/
def decodeLeniently : Option Partial → List UInt8 → List Char
  | none, [] => []
  | some _, [] => [replacement]
  | none, byte :: rest =>
    match firstByte byte with
    | .complete char => char :: decodeLeniently none rest
    | .unfinished piece => decodeLeniently (some piece) rest
    | .stray => replacement :: decodeLeniently none rest
  | some piece, byte :: rest =>
    match nextByte? piece byte with
    | some (.complete char) => char :: decodeLeniently none rest
    | some (.unfinished piece) => decodeLeniently (some piece) rest
    | _ =>
      match firstByte byte with
      | .complete char => replacement :: char :: decodeLeniently none rest
      | .unfinished piece => replacement :: decodeLeniently (some piece) rest
      | .stray => replacement :: replacement :: decodeLeniently none rest

/-- The bytes of a text. -/
def encode (text : String) : List UInt8 := text.toList.flatMap String.utf8EncodeChar

end SecretRenewal.Text
