/-
This file brings names of hosts into ASCII as far as that takes no tables of characters. Letters are
taken in lower case, a few characters that have no width are dropped, and a name in any other
characters is refused. A part that begins with `xn--` is the code of characters beyond ASCII: each
number in it says how much further on in the order of all characters and all places the next one
stands, and is written in digits whose values depend on the numbers before.
-/
import SecretRenewal.Url.Host

namespace SecretRenewal.Url

/-! ### Codes -/

/-- The value of a digit in a code. -/
def codeDigit? (char : Char) : Option Nat :=
  if char.isLower then some (char.toNat - 'a'.toNat)
  else if char.isDigit then some (char.toNat - '0'.toNat + 26)
  else none

/-- Divides by 35 until little is left, and counts 36 for each time. -/
def codeSteps (gap steps : Nat) : Nat × Nat :=
  if 455 < gap then codeSteps (gap / 35) (steps + 36) else (gap, steps)
termination_by gap
decreasing_by omega

/-- How the digits of the next number are weighed, after a number in a text that has grown to so
many characters. -/
def codeBias (gap length : Nat) (isFirst : Bool) : Nat :=
  let damped := if isFirst then gap / 700 else gap / 2
  let (gap, steps) := codeSteps (damped + damped / length) 0
  steps + 36 * gap / (gap + 38)

/-- A code that is being read. -/
structure CodeReader where
  /-- The characters so far. -/
  chars : List Char
  /-- The number of the character put in last. -/
  last : Nat := 128
  /-- The place after it, where the present number counts from. -/
  place : Nat := 0
  /-- The number as far as its digits are read, counted from that place. -/
  sum : Nat := 0
  /-- How much the next digit counts; one before the first. -/
  weight : Nat := 1
  /-- The position of the next digit, in steps of 36. -/
  position : Nat := 36
  /-- How digits are weighed. -/
  bias : Nat := 72

/-- A digit below this value ends its number. -/
def CodeReader.threshold (reader : CodeReader) : Nat :=
  max 1 (min 26 (reader.position - reader.bias))

/-- Puts in the character that a whole number says. -/
def CodeReader.insert? (reader : CodeReader) (sum : Nat) : Option CodeReader :=
  let length := reader.chars.length + 1
  let next := reader.last + sum / length
  if next.isValidChar then
    some {
      chars := reader.chars.insertIdx (sum % length) (Char.ofNat next)
      last := next
      place := sum % length + 1
      sum := sum % length + 1
      bias := codeBias (sum - reader.place) length (reader.place == 0) }
  else none

/-- Reads the digits of a code. -/
def CodeReader.read? : CodeReader → List Char → Option (List Char)
  | reader, [] => if reader.weight = 1 then some reader.chars else none
  | reader, char :: rest => do
    let digit ← codeDigit? char
    let sum := reader.sum + digit * reader.weight
    if digit < reader.threshold then (← reader.insert? sum).read? rest
    else
      read? { reader with
        sum
        weight := reader.weight * (36 - reader.threshold)
        position := reader.position + 36 } rest

/-- What stands in ASCII at the front of a code, up to its last hyphen, and the digits behind. A
hyphen with nothing in front is no such mark. -/
def splitCode (code : List Char) : List Char × List Char :=
  let digits := (code.reverse.takeWhile (· != '-')).reverse
  match code.take (code.length - digits.length - 1) with
  | [] => ([], code)
  | front => (front, digits)

/-- Whether the code in a part of a name stands for characters not all of which are ASCII. -/
def isCodeOfName (part : List Char) : Bool :=
  let (front, digits) := splitCode (part.drop 4)
  (CodeReader.read? { chars := front } digits).any fun chars => chars.any (128 ≤ ·.toNat)

/-! ### Names -/

/-- Characters that a name loses when it is read. -/
def isIgnorable (char : Char) : Bool :=
  ['\u00ad', '\u034f', '\u200b', '\u2060', '\u2064', '\ufeff'].contains char ||
    (decide ('\ufe00' ≤ char) && decide (char ≤ '\ufe0f'))

/-- Whether a name is in the form that it is kept in. -/
def isKeptName (name : List Char) : Bool :=
  name.all isKeptInName &&
    (Text.pieces (· == '.') name).all fun part => !isCode part || isCodeOfName part

/-- The name that bytes write, if they write one in ASCII. -/
def asciiName? (bytes : List UInt8) : Option (List Char) :=
  (Text.decode? bytes).bind fun text =>
    let name := (text.toList.filter fun char => !isIgnorable char).map Char.toLower
    if isKeptName name then some name else none

end SecretRenewal.Url
