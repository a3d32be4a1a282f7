/-
This file holds the part of a URL's grammar that is about single characters: which of them are
written as they are in which component, and how the others are written, as a percent sign and two
hexadecimal digits for each of their bytes. Reading undoes that and leaves a percent sign that
begins no such group alone.
-/
import SecretRenewal.Text.Digit
import SecretRenewal.Text.Utf8

namespace SecretRenewal

namespace Url

/-! ### What is written as it is -/

/-- Control characters, and everything beyond ASCII. -/
def isControl (char : Char) : Bool := decide (char < ' ') || decide ('~' < char)

/-- Whether a character is escaped after a number sign. -/
def escapedInFragment (char : Char) : Bool :=
  isControl char || [' ', '"', '<', '>', '\x60'].contains char

/-- Whether a character is escaped after a question mark; schemes with a host also escape the
apostrophe. -/
def escapedInQuery (special : Bool) (char : Char) : Bool :=
  isControl char || [' ', '"', '#', '<', '>'].contains char || (special && char == '\'')

/-- Whether a character is escaped in a path. -/
def escapedInPath (char : Char) : Bool :=
  escapedInFragment char || ['#', '?', '\x7b', '\x7d'].contains char

/-- Whether a character is escaped in the name or the password of a user. -/
def escapedInUserInfo (char : Char) : Bool :=
  escapedInPath char || ['/', ':', ';', '=', '@', '[', '\\', ']', '^', '|'].contains char

/-! ### Escaping -/

/-- The upper-case hexadecimal digit of a value below sixteen. -/
def hexDigit (value : Nat) : Char :=
  Char.ofNat (if value < 10 then '0'.toNat + value else 'A'.toNat + value - 10)

/-- A byte as a percent sign and two digits. -/
def escapeByte (byte : UInt8) : List Char :=
  ['%', hexDigit (byte.toNat / 16), hexDigit (byte.toNat % 16)]

/-- Characters with some of them escaped. -/
def escape (isEscaped : Char → Bool) (chars : List Char) : String :=
  String.ofList <| chars.flatMap fun char =>
    if isEscaped char then (String.utf8EncodeChar char).flatMap escapeByte else [char]

/-- The bytes of characters of which some are escaped. -/
def unescape : List Char → List UInt8
  | '%' :: first :: second :: rest =>
    match Text.digitIn? 16 first, Text.digitIn? 16 second with
    | some high, some low => UInt8.ofNat (high * 16 + low) :: unescape rest
    | _, _ => 0x25 :: unescape (first :: second :: rest)
  | char :: rest => String.utf8EncodeChar char ++ unescape rest
  | [] => []

end Url

end SecretRenewal
