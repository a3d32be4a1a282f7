/-
This file holds the host of a URL: a name, or an address in one of two forms. Names are kept in
ASCII and in lower case. How a name in other characters is brought into this form depends on tables
of all characters, so it is taken from outside, with what is relied on. A name that ends in a number
has to be an address of four bytes, which may be written with fewer numbers than four and in three
bases; an address of eight words stands in brackets and is written back with its longest run of
zeros left out. Where a scheme has no rules for its hosts, a name is kept as it is written.
-/
import SecretRenewal.Text.Pieces
import SecretRenewal.Url.Percent

namespace SecretRenewal.Url

/-- What is wrong with a URL. -/
inductive Fault
  /-- It has no scheme, and nothing to be completed from. -/
  | relativeWithoutBase
  /-- What it is completed from has no path to complete. -/
  | relativeToPlainBase
  /-- It has no host and needs one. -/
  | emptyHost
  /-- Its port is no number, or one that is too large. -/
  | invalidPort
  /-- Its host ends in a number and is no address. -/
  | invalidIpv4
  /-- Its host in brackets is no address. -/
  | invalidIpv6
  /-- Its host is no name. -/
  | invalidDomainName
  /-- Its host has a character that no host has. -/
  | invalidHostCharacter
  deriving DecidableEq

/-- A fault in words. -/
def Fault.message : Fault → String
  | relativeWithoutBase => "relative URL without a base"
  | relativeToPlainBase => "relative URL with a cannot-be-a-base base"
  | emptyHost => "empty host"
  | invalidPort => "invalid port number"
  | invalidIpv4 => "invalid IPv4 address"
  | invalidIpv6 => "invalid IPv6 address"
  | invalidDomainName => "invalid international domain name"
  | invalidHostCharacter => "invalid domain character"

/-- The host of a URL. -/
inductive Host
  /-- A name. -/
  | name (name : String)
  /-- An address of four bytes, as one number. -/
  | ipv4 (address : Nat)
  /-- An address of eight words of 16 bits. -/
  | ipv6 (words : List Nat)
  deriving DecidableEq

/-! ### Addresses of four bytes -/

/-- A number in an address: with `0x` in front in base sixteen, with another zero in front in base
eight, and else in base ten. No digits after `0x` count as zero, and no digits at all are no
number. -/
def ipv4Number? : List Char → Option Nat
  | [] => none
  | '0' :: 'x' :: digits => Text.numberIn? 16 digits
  | '0' :: 'X' :: digits => Text.numberIn? 16 digits
  | '0' :: digit :: digits => Text.numberIn? 8 (digit :: digits)
  | digits => Text.numberIn? 10 digits

/-- The pieces of a name between its dots, without the empty one after a dot at the end. -/
def dottedPieces (name : List Char) : List (List Char) :=
  let all := Text.pieces (· == '.') name
  if all.length > 1 ∧ all.getLast? = some [] then all.dropLast else all

/-- Whether the last piece of a name is a number, in digits or in one of the other bases. -/
def endsInNumber (name : List Char) : Bool :=
  match (dottedPieces name).getLast? with
  | none => false
  | some last => (last != [] && last.all fun char => (Text.digitIn? 10 char).isSome) ||
    (ipv4Number? last).isSome

/-- The address that a name writes. Each number but the last is a byte, and the last one fills
all the bytes that remain. -/
def ipv4? (name : List Char) : Option Nat := do
  let numbers ← (dottedPieces name).mapM ipv4Number?
  let last ← numbers.getLast?
  let leading := numbers.dropLast
  let room := Nat.pow 256 (4 - leading.length)
  if numbers.length > 4 ∨ leading.any (255 < ·) ∨ room ≤ last then none
  else some (leading.foldl (fun value byte => value * 256 + byte) 0 * room + last)

/-- An address of four bytes in words. -/
def ipv4Text (address : Nat) : String :=
  ".".intercalate ([24, 16, 8, 0].map fun shift => toString (address / Nat.pow 2 shift % 256))

/-! ### Addresses of eight words -/

/-- A word of an address: up to four digits in base sixteen. -/
def ipv6Word? (digits : List Char) : Option Nat :=
  if digits = [] ∨ digits.length > 4 then none else Text.numberIn? 16 digits

/-- A byte at the end of an address, in base ten and without zeros in front. -/
def ipv6Byte? : List Char → Option Nat
  | [] => none
  | ['0'] => some 0
  | '0' :: _ => none
  | digits => (Text.numberIn? 10 digits).filter (decide <| · < 256)

/-- The two words that four bytes at the end of an address make. -/
def ipv6Tail? (piece : List Char) : Option (List Nat) :=
  match (Text.pieces (· == '.') piece).mapM ipv6Byte? with
  | some [first, second, third, fourth] => some [first * 256 + second, third * 256 + fourth]
  | _ => none

/-- Words with colons between them; none for no characters. The last two may be written as four
bytes where that is allowed. -/
def ipv6Words? (withTail : Bool) (chars : List Char) : Option (List Nat) :=
  if chars = [] then some []
  else
    let all := Text.pieces (· == ':') chars
    let last := all.getLastD []
    if withTail && last.contains '.' then do
      return (← all.dropLast.mapM ipv6Word?) ++ (← ipv6Tail? last)
    else all.mapM ipv6Word?

/-- Cuts characters at the first two colons in a row. -/
def atDoubleColon? : List Char → Option (List Char × List Char)
  | ':' :: ':' :: rest => some ([], rest)
  | char :: rest => (atDoubleColon? rest).map fun (before, after) => (char :: before, after)
  | [] => none

/-- The address that characters write. Two colons in a row stand once for one zero word or
more. -/
def ipv6? (chars : List Char) : Option (List Nat) :=
  match atDoubleColon? chars with
  | none => (ipv6Words? true chars).filter (·.length = 8)
  | some (before, after) => do
    let left ← ipv6Words? false before
    let right ← ipv6Words? true after
    if left.length + right.length > 7 then none
    else some (left ++ List.replicate (8 - left.length - right.length) 0 ++ right)

/-- The first of the longest runs of two zero words or more: where it begins and how long it
is. -/
def zeroRun? (words : List Nat) : Option (Nat × Nat) :=
  let runs := (List.range words.length).map fun start =>
    (start, ((words.drop start).takeWhile (· == 0)).length)
  let isLonger (run : Nat × Nat) (best : Option (Nat × Nat)) : Bool :=
    decide (run.2 ≥ 2) && best.all fun found => decide (found.2 < run.2)
  runs.foldl (fun best run => if isLonger run best then some run else best) none

/-- Words in base sixteen with colons between them. -/
def wordsText (words : List Nat) : String :=
  ":".intercalate (words.map fun word => String.ofList (Nat.toDigits 16 word))

/-- An address of eight words, its longest run of zeros left out. -/
def ipv6Text (words : List Nat) : String :=
  match zeroRun? words with
  | none => wordsText words
  | some (start, length) =>
    wordsText (words.take start) ++ "::" ++ wordsText (words.drop (start + length))

/-! ### Hosts -/

/-- A host in words. -/
def Host.text : Host → String
  | .name text => text
  | .ipv4 address => ipv4Text address
  | .ipv6 words => "[" ++ ipv6Text words ++ "]"

/-- Characters that no host has. -/
def isForbiddenInHost (char : Char) : Bool :=
  ['\x00', '\t', '\n', '\x0d', ' ', '#', '/', ':', '<', '>', '?', '@', '[', '\\', ']', '^',
    '|'].contains char

/-- Characters that no name has: those that no host has, and a few more. -/
def isForbiddenInName (char : Char) : Bool :=
  isForbiddenInHost char || isControl char || char == '%'

/-- Whether a character may stand in a name as it is kept. -/
def isKeptInName (char : Char) : Bool := !isForbiddenInName char && char.toLower == char

/-- Whether a part of a name is the code of characters beyond ASCII. -/
def isCode (part : List Char) : Bool := ['x', 'n', '-', '-'].isPrefixOf part

/-- How names are brought into ASCII. -/
class DomainNames where
  /-- The name that bytes write, in the form that it is kept in, if they write one. -/
  toAscii? : List UInt8 → Option (List Char)
  /-- All characters of a kept name may stand there. -/
  all_isKeptInName {bytes : List UInt8} {name : List Char} :
    toAscii? bytes = some name → name.all isKeptInName = true
  /-- A kept name is kept as it is. -/
  toAscii?_of_toAscii? {bytes : List UInt8} {name : List Char} :
    toAscii? bytes = some name → toAscii? (name.flatMap String.utf8EncodeChar) = some name
  /-- A name of such characters is kept as it is where no part of it is a code. -/
  toAscii?_of_all {name : List Char} : name.all isKeptInName = true →
    (Text.pieces (· == '.') name).any isCode = false →
      toAscii? (name.flatMap String.utf8EncodeChar) = some name

/-- An address in brackets. -/
def bracketed (chars : List Char) : Except Fault Host :=
  if chars.getLast? = some ']' then
    match ipv6? (chars.drop 1).dropLast with
    | some words => .ok (.ipv6 words)
    | none => .error .invalidIpv6
  else .error .invalidIpv6

/-- Reads the host of a scheme that has rules for its hosts. -/
def Host.parse [DomainNames] (chars : List Char) : Except Fault Host :=
  if chars.head? = some '[' then bracketed chars
  else match DomainNames.toAscii? (unescape chars) with
    | none => .error .invalidDomainName
    | some kept =>
      if kept = [] then .error .emptyHost
      else if endsInNumber kept then
        match ipv4? kept with
        | some address => .ok (.ipv4 address)
        | none => .error .invalidIpv4
      else .ok (.name (String.ofList kept))

/-- Reads the host of any other scheme, which is kept as it is written. -/
def Host.parsePlain (chars : List Char) : Except Fault Host :=
  if chars.head? = some '[' then bracketed chars
  else if chars.any isForbiddenInHost then .error .invalidHostCharacter
  else .ok (.name (escape isControl chars))

end SecretRenewal.Url
