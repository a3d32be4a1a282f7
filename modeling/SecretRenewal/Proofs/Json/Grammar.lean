/-
This file says which bytes write which data. What is written is a document: data in which the
members of an object still stand in the order they are written in, with repeated keys, and numbers
are still digits. One document is written in many ways, with blanks between its parts and with
characters of texts escaped or not; what it means as data does not depend on the way. A number means
itself where it is a whole number that 64 bits hold, and else the floating-point number that its
leading digits come to when they are scaled by a power of ten.
-/
import SecretRenewal.Json.Reader
import SecretRenewal.Text.Digit

namespace SecretRenewal.Json

/-! ### Numbers -/

/-- A decimal digit. -/
abbrev Digit := Fin 10

/-- The byte of a digit. -/
def digitByte (digit : Digit) : UInt8 := UInt8.ofNat (48 + digit.val)

/-- The number that digits write. -/
def digitsValue (digits : List Digit) : Nat :=
  digits.foldl (fun value digit => value * 10 + digit.val) 0

/-- A number as it is written. -/
structure Numeral where
  /-- Whether it has a sign. -/
  negative : Bool
  /-- The digits in front of the point. -/
  whole : List Digit
  /-- The digits after the point; none where there is no point. -/
  fraction : List Digit := []
  /-- Whether the exponent counts downward, and its digits. -/
  exponent : Option (Bool × List Digit) := none
  /-- There is a digit. -/
  whole_ne_nil : whole ≠ []
  /-- A zero in front is the only digit in front of the point. -/
  whole_of_zero : whole.head? = some 0 → whole = [0]
  /-- An exponent has a digit. -/
  exponent_ne_nil : ∀ written ∈ exponent, written.2 ≠ []

namespace Numeral

/-- Takes up digits after a number as long as 64 bits hold it; also says how many were taken. -/
def takeUp : (number : Nat) → (digits : List Digit) → Nat × Nat
  | number, [] => (number, 0)
  | number, digit :: rest =>
    if number * 10 + digit.val < Nat.pow 2 64 then
      let (taken, count) := takeUp (number * 10 + digit.val) rest
      (taken, count + 1)
    else (number, 0)

/-- A magnitude scaled by a power of ten, rounded at every step, unless that leaves the finite
numbers. -/
def scaled? : (pieces : Nat) → (magnitude : Binary64.Datum) → (exponent : Int) →
    Option Binary64.Datum
  | 0, magnitude, _ => some magnitude
  | pieces + 1, magnitude, exponent =>
    if exponent.natAbs ≤ 308 then
      let power := Binary64.Datum.ofNat (Nat.pow 10 exponent.natAbs)
      if 0 ≤ exponent then
        match magnitude.mul power with
        | .infinite _ => none
        | product => some product
      else some (magnitude.div power)
    else if magnitude.sameNumber .zero then some magnitude
    else if 0 ≤ exponent then none
    else scaled? pieces (magnitude.div (.ofNat (Nat.pow 10 308))) (exponent + 308)

/-- The whole number that is written, where it is written without a point and an exponent and 64
bits hold it, with its sign if it has one. Zero with a sign is none. -/
def integer? (numeral : Numeral) : Option Int :=
  if numeral.fraction = [] ∧ numeral.exponent = none then
    let value := digitsValue numeral.whole
    if numeral.negative = false then
      if value < Nat.pow 2 64 then some value else none
    else if 0 < value ∧ value ≤ Nat.pow 2 63 then some (-value)
    else none
  else none

/-- Digits scaled by a power of ten and by the exponent that is written. An exponent that is beyond
all bounds leaves zero, or no number. -/
def withExponent? (significand : Nat) (shift : Int) :
    Option (Bool × List Digit) → Option Binary64.Datum
  | none => scaled? 4 (.ofNat significand) shift
  | some (downward, digits) =>
    let value : Int := digitsValue digits
    if Reader.exponentLimit < value then
      if significand ≠ 0 ∧ downward = false then none else some .zero
    else
      let total := if downward then shift - value else shift + value
      scaled? 4 (.ofNat significand)
        (max (-Reader.exponentLimit - 1) (min Reader.exponentLimit total))

/-- The magnitude of a number that is read as a floating-point number: its leading digits, as many
as 64 bits hold, scaled by the power of ten that is left. -/
def magnitude? (numeral : Numeral) : Option Binary64.Datum :=
  let (front, kept) := takeUp 0 numeral.whole
  let dropped := numeral.whole.length - kept
  if numeral.fraction = [] ∧ numeral.exponent = none ∧ dropped = 0 then some (.ofNat front)
  else
    let (significand, added) := takeUp front numeral.fraction
    withExponent? significand (dropped - added) numeral.exponent

/-- What a number is read as, unless it leaves the finite numbers. An integer of 64 bits is read as
it is written. Any other number is read with the rounding of each step, which need not lead to the
nearest floating-point number: 316912650057057350374175801344, which is `2 ^ 98`, comes out one step
below. -/
def number? (numeral : Numeral) : Option Reader.Number :=
  match numeral.integer? with
  | some value => some (.integer value)
  | none => numeral.magnitude?.map (Reader.signed numeral.negative)

/-- The number stays within the finite ones while it is read. -/
def Finite (numeral : Numeral) : Prop := numeral.number?.isSome = true

/-- The whole number without a sign that 64 bits hold, where one is written. -/
def word? (numeral : Numeral) : Option UInt64 :=
  if numeral.negative = false ∧ numeral.fraction = [] ∧ numeral.exponent = none ∧
      digitsValue numeral.whole < Nat.pow 2 64 then
    some (UInt64.ofNat (digitsValue numeral.whole))
  else none

end Numeral

/-! ### Documents -/

/-- Data as it is written, but for blanks and the escaping of characters. -/
inductive Document
  /-- The absence of a value. -/
  | null
  /-- A truth value. -/
  | boolean (value : Bool)
  /-- A number. -/
  | number (numeral : Numeral)
  /-- A text. -/
  | text (value : String)
  /-- A list. -/
  | list (items : List Document)
  /-- An object, its members as they are written. -/
  | object (members : List (String × Document))

namespace Document

mutual

/-- What a document means as data. Of several members of an object with one key the last counts. -/
def json : Document → Json
  | null => .null
  | boolean value => .boolean value
  | number numeral =>
    match numeral.number? with
    | some (.integer value) => .integer value
    | some (.real value) => .real value
    | none => .null
  | text value => .text value
  | list items => .list (itemsJson items)
  | object members => .object (Entries.setAll [] (membersJson members))

/-- What the items of a list mean. -/
def itemsJson : List Document → List Json
  | [] => []
  | item :: rest => item.json :: itemsJson rest

/-- What the members of an object mean, as they stand. -/
def membersJson : List (String × Document) → List (String × Json)
  | [] => []
  | (key, value) :: rest => (key, value.json) :: membersJson rest

end

/-- Lists and objects are nested no deeper than so many levels, and every number is one of those
that are admitted. -/
inductive Fits (admitted : Numeral → Prop) : (levels : Nat) → Document → Prop
  | null {levels : Nat} : Fits admitted levels .null
  | boolean {levels : Nat} {value : Bool} : Fits admitted levels (.boolean value)
  | number {levels : Nat} {numeral : Numeral} (isAdmitted : admitted numeral) :
      Fits admitted levels (.number numeral)
  | text {levels : Nat} {value : String} : Fits admitted levels (.text value)
  | list {levels : Nat} {items : List Document} (fit : ∀ item ∈ items, Fits admitted levels item) :
      Fits admitted (levels + 1) (.list items)
  | object {levels : Nat} {members : List (String × Document)}
      (fit : ∀ member ∈ members, Fits admitted levels member.2) :
      Fits admitted (levels + 1) (.object members)

end Document

/-! ### What is written -/

/-- Bytes that only part others. -/
def Blanks (bytes : List UInt8) : Prop := ∀ byte ∈ bytes, isBlank byte = true

/-- The bytes of an exponent. -/
inductive Numeral.WritesExponent : Option (Bool × List Digit) → List UInt8 → Prop
  | none : WritesExponent none []
  | upward {letter : Char} {sign : List Char} {digits : List Digit}
      (isLetter : letter = 'e' ∨ letter = 'E') (isSign : sign = [] ∨ sign = ['+']) :
      WritesExponent (some (false, digits))
        (byteOf letter :: (sign.map byteOf ++ digits.map digitByte))
  | downward {letter : Char} {digits : List Digit} (isLetter : letter = 'e' ∨ letter = 'E') :
      WritesExponent (some (true, digits))
        (byteOf letter :: byteOf '-' :: digits.map digitByte)

/-- The bytes of the point and the digits after it. -/
def Numeral.fractionBytes (numeral : Numeral) : List UInt8 :=
  if numeral.fraction = [] then [] else byteOf '.' :: numeral.fraction.map digitByte

/-- The bytes of a number. -/
inductive Numeral.Writes (numeral : Numeral) : List UInt8 → Prop
  | written {exponent : List UInt8} (written : WritesExponent numeral.exponent exponent) :
      Writes numeral ((if numeral.negative then [byteOf '-'] else []) ++
        (numeral.whole.map digitByte ++ (numeral.fractionBytes ++ exponent)))

/-- The letters that stand for a character after a backslash. -/
def shortEscapes : List (Char × Char) :=
  [('"', '"'), ('\\', '\\'), ('/', '/'), ('b', '\x08'), ('f', '\x0c'), ('n', '\n'), ('r', '\x0d'),
    ('t', '\t')]

/-- Four digits in base sixteen write a number. -/
def WritesCode (digits : List Char) (code : Nat) : Prop :=
  digits.length = 4 ∧ Text.numberIn? 16 digits = some code

/-- The bytes of a character inside a text: as it is, by a letter, by its number, or by the two
numbers of a surrogate pair. -/
inductive WritesChar : Char → List UInt8 → Prop
  | plain {char : Char} (notControl : 0x20 ≤ char.toNat) (notQuote : char ≠ '"')
      (notBackslash : char ≠ '\\') : WritesChar char (String.utf8EncodeChar char)
  | short {letter char : Char} (escape : (letter, char) ∈ shortEscapes) :
      WritesChar char [byteOf '\\', byteOf letter]
  | code {char : Char} {digits : List Char} (written : WritesCode digits char.toNat) :
      WritesChar char (byteOf '\\' :: byteOf 'u' :: digits.map byteOf)
  | pair {char : Char} {high low : List Char} {leading trailing : Nat}
      (writtenHigh : WritesCode high leading) (writtenLow : WritesCode low trailing)
      (isLeading : 0xd800 ≤ leading ∧ leading ≤ 0xdbff)
      (isTrailing : 0xdc00 ≤ trailing ∧ trailing ≤ 0xdfff)
      (sum : char.toNat = (leading - 0xd800) * 1024 + (trailing - 0xdc00) + 0x10000) :
      WritesChar char ((byteOf '\\' :: byteOf 'u' :: high.map byteOf) ++
        (byteOf '\\' :: byteOf 'u' :: low.map byteOf))

/-- The bytes of the characters of a text. -/
inductive WritesChars : List Char → List UInt8 → Prop
  | nil : WritesChars [] []
  | cons {char : Char} {chars : List Char} {first rest : List UInt8}
      (written : WritesChar char first) (others : WritesChars chars rest) :
      WritesChars (char :: chars) (first ++ rest)

/-- The bytes of a text. -/
inductive WritesText (text : String) : List UInt8 → Prop
  | quoted {bytes : List UInt8} (written : WritesChars text.toList bytes) :
      WritesText text (byteOf '"' :: (bytes ++ [byteOf '"']))

/-- The letters of a truth value. -/
def truthLetters (value : Bool) : List Char :=
  if value then ['t', 'r', 'u', 'e'] else ['f', 'a', 'l', 's', 'e']

mutual

/-- The bytes of a document. -/
inductive Writes : Document → List UInt8 → Prop
  | null : Writes .null (['n', 'u', 'l', 'l'].map byteOf)
  | boolean (value : Bool) : Writes (.boolean value) ((truthLetters value).map byteOf)
  | number {numeral : Numeral} {bytes : List UInt8} (written : numeral.Writes bytes) :
      Writes (.number numeral) bytes
  | text {value : String} {bytes : List UInt8} (written : WritesText value bytes) :
      Writes (.text value) bytes
  | noItems {blanks : List UInt8} (blank : Blanks blanks) :
      Writes (.list []) (byteOf '[' :: (blanks ++ [byteOf ']']))
  | list {item : Document} {items : List Document} {first rest : List UInt8}
      (written : WritesItem item first) (others : WritesItems items rest) :
      Writes (.list (item :: items)) (byteOf '[' :: (first ++ (rest ++ [byteOf ']'])))
  | noMembers {blanks : List UInt8} (blank : Blanks blanks) :
      Writes (.object []) (byteOf '\x7b' :: (blanks ++ [byteOf '\x7d']))
  | object {member : String × Document} {members : List (String × Document)}
      {first rest : List UInt8} (written : WritesMember member first)
      (others : WritesMembers members rest) :
      Writes (.object (member :: members))
        (byteOf '\x7b' :: (first ++ (rest ++ [byteOf '\x7d'])))

/-- The bytes of a value with the blanks around it. -/
inductive WritesItem : Document → List UInt8 → Prop
  | item {document : Document} {before bytes after : List UInt8} (blankBefore : Blanks before)
      (written : Writes document bytes) (blankAfter : Blanks after) :
      WritesItem document (before ++ (bytes ++ after))

/-- The bytes of further items, each with a comma in front. -/
inductive WritesItems : List Document → List UInt8 → Prop
  | nil : WritesItems [] []
  | cons {item : Document} {items : List Document} {first rest : List UInt8}
      (written : WritesItem item first) (others : WritesItems items rest) :
      WritesItems (item :: items) (byteOf ',' :: (first ++ rest))

/-- The bytes of a member with the blanks around its parts. -/
inductive WritesMember : String × Document → List UInt8 → Prop
  | member {key : String} {document : Document} {before keyBytes after valueBytes : List UInt8}
      (blankBefore : Blanks before) (writtenKey : WritesText key keyBytes)
      (blankAfter : Blanks after) (written : WritesItem document valueBytes) :
      WritesMember (key, document)
        (before ++ (keyBytes ++ (after ++ byteOf ':' :: valueBytes)))

/-- The bytes of further members, each with a comma in front. -/
inductive WritesMembers : List (String × Document) → List UInt8 → Prop
  | nil : WritesMembers [] []
  | cons {member : String × Document} {members : List (String × Document)}
      {first rest : List UInt8} (written : WritesMember member first)
      (others : WritesMembers members rest) :
      WritesMembers (member :: members) (byteOf ',' :: (first ++ rest))

end

end SecretRenewal.Json
