/-
This file writes data as text on one line: members in the order they stand in, no blanks, and
in texts only the quote, the backslash and control characters escaped. A floating-point number
is written as an object that holds its bits, so that nothing of it is lost.
-/
import SecretRenewal.Json.Value

namespace SecretRenewal.Json

/-- Four hexadecimal digits. -/
def fourHexDigits (value : Nat) : List Char :=
  let digits := Nat.toDigits 16 value
  List.replicate (4 - digits.length) '0' ++ digits

/-- One character of a written text. -/
def escapeChar (char : Char) : List Char :=
  if char = '"' then ['\\', '"']
  else if char = '\\' then ['\\', '\\']
  else if char.toNat < 0x20 then ['\\', 'u'] ++ fourHexDigits char.toNat
  else [char]

/-- A written text. -/
def writeText (value : String) : String :=
  "\"" ++ String.ofList (value.toList.flatMap escapeChar) ++ "\""

mutual

/-- A written value. -/
def write : Json → String
  | null => "null"
  | boolean true => "true"
  | boolean false => "false"
  | integer value => toString value
  | real value => "\x7b\"$f64\":\"" ++ toString value.bits.toNat ++ "\"\x7d"
  | text value => writeText value
  | list items => "[" ++ writeItems items ++ "]"
  | object members => "\x7b" ++ writeMembers members ++ "\x7d"

/-- The written items of a list. -/
def writeItems : List Json → String
  | [] => ""
  | [item] => write item
  | item :: rest => write item ++ "," ++ writeItems rest

/-- The written members of an object. -/
def writeMembers : List (String × Json) → String
  | [] => ""
  | [(key, value)] => writeText key ++ ":" ++ write value
  | (key, value) :: rest => writeText key ++ ":" ++ write value ++ "," ++ writeMembers rest

end

end SecretRenewal.Json
