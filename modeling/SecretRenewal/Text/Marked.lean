/-
This file reads bytes as text that may begin with a mark of how they are to be read: as characters
of one to four bytes, or as units of two bytes in either order. A character beyond the first 65536
takes two units, and a half of one that stands alone becomes a replacement character. How bytes
without a mark are read is for others to say.
-/
import SecretRenewal.Text.Utf8

namespace SecretRenewal.Text

/-- A unit of two bytes. -/
def unitOf (greaterFirst : Bool) (first second : UInt8) : Nat :=
  if greaterFirst then first.toNat * 256 + second.toNat else second.toNat * 256 + first.toNat

/-- Whether a unit is the first half of a character. -/
def isLeading (unit : Nat) : Bool := decide (0xd800 ≤ unit) && decide (unit < 0xdc00)

/-- Whether a unit is the second half of a character. -/
def isTrailing (unit : Nat) : Bool := decide (0xdc00 ≤ unit) && decide (unit < 0xe000)

/-- The characters of units read after the first half of one, each half that stands alone
replaced. What the bytes break off in is replaced as a whole. -/
def decodeUnits (greaterFirst : Bool) : Option Nat → List UInt8 → List Char
  | none, [] => []
  | some _, [] => [replacement]
  | _, [_] => [replacement]
  | none, first :: second :: rest =>
    let unit := unitOf greaterFirst first second
    if isLeading unit then decodeUnits greaterFirst (some unit) rest
    else if isTrailing unit then replacement :: decodeUnits greaterFirst none rest
    else Char.ofNat unit :: decodeUnits greaterFirst none rest
  | some leading, first :: second :: rest =>
    let unit := unitOf greaterFirst first second
    if isTrailing unit then
      Char.ofNat (0x10000 + (leading - 0xd800) * 0x400 + (unit - 0xdc00)) ::
        decodeUnits greaterFirst none rest
    else if isLeading unit then replacement :: decodeUnits greaterFirst (some unit) rest
    else replacement :: Char.ofNat unit :: decodeUnits greaterFirst none rest

/-- The text of bytes without a mark, wrong pieces replaced. -/
def decodeReplacing (bytes : List UInt8) : String := String.ofList (decodeLeniently none bytes)

/-- The text of bytes, read as the mark they begin with says, or in another way where they have
none. The mark is no part of it. -/
def decodeMarked (unmarked : List UInt8 → String) : List UInt8 → String
  | 0xef :: 0xbb :: 0xbf :: rest => decodeReplacing rest
  | 0xff :: 0xfe :: rest => String.ofList (decodeUnits false none rest)
  | 0xfe :: 0xff :: rest => String.ofList (decodeUnits true none rest)
  | bytes => unmarked bytes

end SecretRenewal.Text
