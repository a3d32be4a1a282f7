/-
This file reads data from bytes, from the first to the last, so that the first thing wrong is
the one reported. A reader takes bytes off the front and leaves the rest. Lists and objects may
be nested 127 deep; what is only skipped may be nested without bound, and of a skipped text or
number only the outer form is looked at.
-/
import SecretRenewal.Json.Problem
import SecretRenewal.Json.Value
import SecretRenewal.Text.Utf8

namespace SecretRenewal.Json

/-- Takes bytes off the front, or says what is wrong with them. -/
abbrev Reader (value : Type) := StateT (List UInt8) (Except Problem) value

/-- The byte of a basic letter or mark. -/
abbrev byteOf (char : Char) : UInt8 := char.toUInt8

/-- Whether a byte is one of the four blanks. -/
def isBlank (byte : UInt8) : Bool :=
  byte == byteOf ' ' || byte == byteOf '\n' || byte == byteOf '\t' || byte == byteOf '\r'

/-- Whether a byte is a decimal digit. -/
def isDigit (byte : UInt8) : Bool := decide (byteOf '0' ≤ byte ∧ byte ≤ byteOf '9')

/-- The value of a decimal digit. -/
def digitValue (byte : UInt8) : Nat := byte.toNat - 48

/-- The value of a hexadecimal digit. -/
def hexValue? (byte : UInt8) : Option Nat :=
  if isDigit byte then some (digitValue byte)
  else if byteOf 'a' ≤ byte ∧ byte ≤ byteOf 'f' then some (byte.toNat - 87)
  else if byteOf 'A' ≤ byte ∧ byte ≤ byteOf 'F' then some (byte.toNat - 55)
  else none

/-- The value of four hexadecimal digits. -/
def hexWord? (first second third fourth : UInt8) : Option Nat := do
  return ((← hexValue? first) * 16 + (← hexValue? second)) * 256 +
    ((← hexValue? third) * 16 + (← hexValue? fourth))

namespace Reader

/-! ### Bytes -/

/-- The text is no data. -/
def refuse {value : Type} : Reader value := throw .notJson

/-- The data has another shape. -/
def differ {value : Type} (difference : Mismatch) : Reader value := throw (.mismatch difference)

/-- The next byte, left in place. -/
def peek? : Reader (Option UInt8) := return (← get).head?

/-- Takes one byte off. -/
def drop : Reader Unit := modify List.tail

/-- Takes blanks off and shows the byte after them. -/
def peekAfterBlanks? : Reader (Option UInt8) := do
  modify (·.dropWhile isBlank)
  peek?

/-- Takes blanks off; something has to follow. -/
def peekValue : Reader UInt8 := do
  match ← peekAfterBlanks? with
  | some byte => return byte
  | none => throw .endOfText

/-- Takes the letters of a word off, which have to be these. -/
def word (letters : List Char) : Reader Unit :=
  letters.forM fun letter => do
    match ← peek? with
    | none => throw .endOfText
    | some byte => if byte = byteOf letter then drop else refuse

/-! ### Numbers -/

/-- A number as it is read: whole when it is written without a point and an exponent and fits in
64 bits, with or without a sign. -/
inductive Number
  /-- A whole number. -/
  | integer (value : Int)
  /-- A floating-point number. -/
  | real (value : Binary64)
  deriving DecidableEq

/-- Adds digits to a number as long as 64 bits hold it; also says how many were added. -/
def accumulate : (number : Nat) → (digits : List UInt8) → Nat × Nat
  | number, [] => (number, 0)
  | number, digit :: rest =>
    let next := number * 10 + digitValue digit
    if next < Nat.pow 2 64 then
      let (number, added) := accumulate next rest
      (number, added + 1)
    else (number, 0)

/-- Takes digits off. -/
def digits : Reader (List UInt8) := do
  let (taken, rest) := (← get).span isDigit
  set rest
  return taken

/-- A number with its sign. -/
def signed (negative : Bool) (magnitude : Binary64.Datum) : Number :=
  .real (if negative then magnitude.neg else magnitude).toBinary64

/-- Scales digits by a power of ten. A power beyond `10 ^ 308` is applied in pieces, and a
magnitude that leaves the finite numbers refuses the text. -/
def scale : (pieces : Nat) → (magnitude : Binary64.Datum) → (exponent : Int) →
    Reader Binary64.Datum
  | 0, magnitude, _ => return magnitude
  | pieces + 1, magnitude, exponent =>
    if exponent.natAbs ≤ 308 then
      let power := Binary64.Datum.ofNat (Nat.pow 10 exponent.natAbs)
      if 0 ≤ exponent then
        match magnitude.mul power with
        | .infinite _ => refuse
        | product => return product
      else return magnitude.div power
    else if magnitude.sameNumber .zero then return magnitude
    else if 0 ≤ exponent then refuse
    else scale pieces (magnitude.div (.ofNat (Nat.pow 10 308))) (exponent + 308)

/-- A number from its digits and a power of ten. -/
def fromParts (negative : Bool) (significand : Nat) (exponent : Int) : Reader Number := do
  return signed negative (← scale 4 (.ofNat significand) exponent)

/-- The greatest exponent that is read as it stands. -/
def exponentLimit : Int := 2147483647

/-- The rest of a number after the letter of the exponent. -/
def exponent (negative : Bool) (significand : Nat) (shift : Int) : Reader Number := do
  let downward ← do
    match ← peek? with
    | some sign =>
      if sign = byteOf '+' then drop; pure false
      else if sign = byteOf '-' then drop; pure true
      else pure false
    | none => pure false
  match ← peek? with
  | none => throw .endOfText
  | some _ =>
    let taken ← digits
    if taken.isEmpty then refuse
    else
      let value : Int := taken.foldl (fun value digit => value * 10 + (digitValue digit : Int)) 0
      if exponentLimit < value then
        if significand ≠ 0 ∧ downward = false then refuse
        else return signed negative .zero
      else
        let total := if downward then shift - value else shift + value
        fromParts negative significand (max (-exponentLimit - 1) (min exponentLimit total))

/-- The rest of a number after the point. -/
def fraction (negative : Bool) (significand : Nat) (shift : Int) : Reader Number := do
  let taken ← digits
  if taken.isEmpty then
    match ← peek? with
    | none => throw .endOfText
    | some _ => refuse
  else
    let (significand, added) := accumulate significand taken
    let shift := shift - added
    let next ← peek?
    if next = some (byteOf 'e') ∨ next = some (byteOf 'E') then
      drop
      exponent negative significand shift
    else fromParts negative significand shift

/-- The number that digits without a point and an exponent stand for. -/
def whole (negative : Bool) (significand : Nat) : Number :=
  if negative = false then .integer significand
  else if 0 < significand ∧ significand ≤ Nat.pow 2 63 then .integer (-(significand : Int))
  else signed true (.ofNat significand)

/-- A number after its sign. -/
def number (negative : Bool) : Reader Number := do
  match ← peek? with
  | none => throw .endOfText
  | some first =>
    let taken ← digits
    if taken.isEmpty ∨ (first = byteOf '0' ∧ 1 < taken.length) then refuse
    else
      let (significand, added) := accumulate 0 taken
      let dropped := taken.length - added
      let next ← peek?
      if next = some (byteOf '.') then
        drop
        fraction negative significand dropped
      else if next = some (byteOf 'e') ∨ next = some (byteOf 'E') then
        drop
        exponent negative significand dropped
      else if dropped = 0 then return whole negative significand
      else fromParts negative significand dropped

/-- A number from its first byte on. -/
def signedNumber (first : UInt8) : Reader Number := do
  if first = byteOf '-' then
    drop
    number true
  else number false

/-! ### Texts -/

/-- What a letter after a backslash stands for. -/
def escaped? (letter : UInt8) : Option UInt8 :=
  if letter = byteOf '"' then some 0x22
  else if letter = byteOf '\\' then some 0x5c
  else if letter = byteOf '/' then some 0x2f
  else if letter = byteOf 'b' then some 0x08
  else if letter = byteOf 'f' then some 0x0c
  else if letter = byteOf 'n' then some 0x0a
  else if letter = byteOf 'r' then some 0x0d
  else if letter = byteOf 't' then some 0x09
  else none

/-- Adds the bytes of a character in front of bytes kept in reverse. -/
def pushCode (code : Nat) (reversed : List UInt8) : List UInt8 :=
  (String.utf8EncodeChar (Char.ofNat code)).reverse ++ reversed

/-- The bytes of a text up to its closing quote, in reverse, and the bytes after it. `leading`
is the first half of a surrogate pair whose second half has to follow. -/
def textBytes : (leading : Option Nat) → (reversed : List UInt8) → List UInt8 →
    Except Problem (List UInt8 × List UInt8)
  | _, _, [] => .error .endOfText
  | leading, reversed, byte :: rest =>
    if byte = byteOf '\\' then
      match rest with
      | [] => .error .endOfText
      | letter :: rest =>
        if letter = byteOf 'u' then
          match rest with
          | first :: second :: third :: fourth :: rest =>
            match hexWord? first second third fourth with
            | none => .error .notJson
            | some code =>
              match leading with
              | some high =>
                if 0xdc00 ≤ code ∧ code ≤ 0xdfff then
                  textBytes none
                    (pushCode ((high - 0xd800) * 1024 + (code - 0xdc00) + 0x10000) reversed) rest
                else .error .notJson
              | none =>
                if 0xdc00 ≤ code ∧ code ≤ 0xdfff then .error .notJson
                else if 0xd800 ≤ code ∧ code ≤ 0xdbff then textBytes (some code) reversed rest
                else textBytes none (pushCode code reversed) rest
          | _ => .error .endOfText
        else
          match leading, escaped? letter with
          | none, some meant => textBytes none (meant :: reversed) rest
          | _, _ => .error .notJson
    else if leading.isSome then .error .notJson
    else if byte = byteOf '"' then .ok (reversed, rest)
    else if byte < 0x20 then .error .notJson
    else textBytes none (byte :: reversed) rest

/-- A text after its opening quote. Its bytes have to be text once it is complete. -/
def text : Reader String := do
  match textBytes none [] (← get) with
  | .error problem => throw problem
  | .ok (reversed, rest) =>
    set rest
    match Text.decode? reversed.reverse with
    | some text => return text
    | none => refuse

/-! ### Lists and objects -/

/-- After an opening bracket or an item: whether another item follows. A closing bracket stays
in place. -/
def anotherItem (first : Bool) : Reader Bool := do
  match ← peekAfterBlanks? with
  | none => throw .endOfText
  | some byte =>
    if byte = byteOf ']' then return false
    else if first then return true
    else if byte = byteOf ',' then
      drop
      let next ← peekValue
      if next = byteOf ']' then refuse else return true
    else refuse

/-- The closing bracket of a list. -/
def endOfList : Reader Unit := do
  let byte ← peekValue
  if byte = byteOf ']' then drop else refuse

/-- After an opening brace or a member: the key of another member, if one follows. A closing
brace stays in place. -/
def anotherKey? (first : Bool) : Reader (Option String) := do
  match ← peekAfterBlanks? with
  | none => throw .endOfText
  | some byte =>
    if byte = byteOf '\x7d' then return none
    else
      let next ←
        if first then pure byte
        else if byte = byteOf ',' then
          drop
          peekValue
        else refuse
      if next = byteOf '"' then
        drop
        return some (← text)
      else refuse

/-- The colon after a key. -/
def colon : Reader Unit := do
  let byte ← peekValue
  if byte = byteOf ':' then drop else refuse

/-- The closing brace of an object. -/
def endOfObject : Reader Unit := do
  let byte ← peekValue
  if byte = byteOf '\x7d' then drop else refuse

/-- Reads what is inside one more pair of brackets, when `depth` allows one. -/
def nested {value : Type} (depth : Nat) (inside : Nat → Reader value) : Reader value :=
  if depth ≤ 1 then refuse else inside (depth - 1)

/-- How deep a text may be nested, counted from one below. -/
def depthLimit : Nat := 128

/-! ### Data of any shape -/

mutual

/-- A value. Every step takes at least one byte, so as many `steps` as bytes suffice. -/
def anyValue : (steps : Nat) → (depth : Nat) → Reader Json
  | 0, _ => throw .endOfText
  | steps + 1, depth => do
    let byte ← peekValue
    if byte = byteOf 'n' then
      word ['n', 'u', 'l', 'l']
      return .null
    else if byte = byteOf 't' then
      word ['t', 'r', 'u', 'e']
      return .boolean true
    else if byte = byteOf 'f' then
      word ['f', 'a', 'l', 's', 'e']
      return .boolean false
    else if byte = byteOf '-' || isDigit byte then
      match ← signedNumber byte with
      | .integer value => return .integer value
      | .real value => return .real value
    else if byte = byteOf '"' then
      drop
      return .text (← text)
    else if byte = byteOf '[' then
      nested depth fun depth => do
        drop
        let items ← anyItems steps depth true
        endOfList
        return .list items
    else if byte = byteOf '\x7b' then
      nested depth fun depth => do
        drop
        let members ← anyMembers steps depth true []
        endOfObject
        return .object members
    else refuse

/-- The items of a list. -/
def anyItems : (steps : Nat) → (depth : Nat) → (first : Bool) → Reader (List Json)
  | 0, _, _ => throw .endOfText
  | steps + 1, depth, first => do
    if ← anotherItem first then
      let item ← anyValue steps depth
      let rest ← anyItems steps depth false
      return item :: rest
    else return []

/-- The members of an object, added to those already read; the last of several with one key
counts. -/
def anyMembers : (steps : Nat) → (depth : Nat) → (first : Bool) → (members : Entries Json) →
    Reader (Entries Json)
  | 0, _, _, _ => throw .endOfText
  | steps + 1, depth, first, members => do
    match ← anotherKey? first with
    | none => return members
    | some key =>
      colon
      let value ← anyValue steps depth
      anyMembers steps depth false (members.set key value)

end

/-- Steps that suffice for the bytes there are: each byte is taken once, and a list or an object
costs two more. -/
def enoughSteps : Reader Nat := return 2 * (← get).length + 2

/-- A value of any shape. -/
def value (depth : Nat) : Reader Json := do anyValue (← enoughSteps) depth

/-! ### Skipping -/

/-- An open list or object. -/
inductive Bracket
  /-- A list. -/
  | list
  /-- An object. -/
  | object
  deriving DecidableEq

/-- Skips a number after its sign. A number that ends too early is refused like any other wrong
one. -/
def skipNumber : Reader Unit := do
  let first ← peek?
  let taken ← digits
  if taken.isEmpty ∨ (first = some (byteOf '0') ∧ 1 < taken.length) then refuse
  else
    if (← peek?) = some (byteOf '.') then
      drop
      if (← digits).isEmpty then refuse
    let next ← peek?
    if next = some (byteOf 'e') ∨ next = some (byteOf 'E') then
      drop
      let sign ← peek?
      if sign = some (byteOf '+') ∨ sign = some (byteOf '-') then drop
      if (← digits).isEmpty then refuse

/-- The bytes after a skipped text. Neither its bytes nor its surrogates are looked at. -/
def afterText : List UInt8 → Except Problem (List UInt8)
  | [] => .error .endOfText
  | byte :: rest =>
    if byte = byteOf '"' then .ok rest
    else if byte = byteOf '\\' then
      match rest with
      | [] => .error .endOfText
      | letter :: rest =>
        if letter = byteOf 'u' then
          match rest with
          | first :: second :: third :: fourth :: rest =>
            if (hexWord? first second third fourth).isSome then afterText rest
            else .error .notJson
          | _ => .error .endOfText
        else if (escaped? letter).isSome then afterText rest
        else .error .notJson
    else if byte < 0x20 then .error .notJson
    else afterText rest

/-- Skips a text after its opening quote. -/
def skipText : Reader Unit := do
  match afterText (← get) with
  | .error problem => throw problem
  | .ok rest => set rest

/-- Where skipping stands. -/
inductive SkipPoint
  /-- A value has to follow. -/
  | value
  /-- A bracket has just been opened. -/
  | opened
  /-- A key has to follow. -/
  | key
  /-- A value has just ended. -/
  | ended
  deriving DecidableEq

/-- Skips from a point on until every open bracket is closed. -/
def skipFrom : (steps : Nat) → (point : SkipPoint) → (brackets : List Bracket) → Reader Unit
  | 0, _, _ => throw .endOfText
  | steps + 1, .value, brackets => do
    let byte ← peekValue
    if byte = byteOf 'n' then
      word ['n', 'u', 'l', 'l']
      skipFrom steps .ended brackets
    else if byte = byteOf 't' then
      word ['t', 'r', 'u', 'e']
      skipFrom steps .ended brackets
    else if byte = byteOf 'f' then
      word ['f', 'a', 'l', 's', 'e']
      skipFrom steps .ended brackets
    else if byte = byteOf '-' then
      drop
      skipNumber
      skipFrom steps .ended brackets
    else if isDigit byte then
      skipNumber
      skipFrom steps .ended brackets
    else if byte = byteOf '"' then
      drop
      skipText
      skipFrom steps .ended brackets
    else if byte = byteOf '[' then
      drop
      skipFrom steps .opened (.list :: brackets)
    else if byte = byteOf '\x7b' then
      drop
      skipFrom steps .opened (.object :: brackets)
    else refuse
  | steps + 1, .opened, brackets => do
    let byte ← peekValue
    match brackets with
    | .list :: outer =>
      if byte = byteOf ']' then
        drop
        skipFrom steps .ended outer
      else skipFrom steps .value brackets
    | .object :: outer =>
      if byte = byteOf '\x7d' then
        drop
        skipFrom steps .ended outer
      else skipFrom steps .key brackets
    | [] => refuse
  | steps + 1, .key, brackets => do
    let byte ← peekValue
    if byte = byteOf '"' then
      drop
      skipText
      colon
      skipFrom steps .value brackets
    else refuse
  | _ + 1, .ended, [] => return ()
  | steps + 1, .ended, .list :: outer => do
    let byte ← peekValue
    if byte = byteOf ',' then
      drop
      skipFrom steps .value (.list :: outer)
    else if byte = byteOf ']' then
      drop
      skipFrom steps .ended outer
    else refuse
  | steps + 1, .ended, .object :: outer => do
    let byte ← peekValue
    if byte = byteOf ',' then
      drop
      skipFrom steps .key (.object :: outer)
    else if byte = byteOf '\x7d' then
      drop
      skipFrom steps .ended outer
    else refuse

/-- Skips a value of any shape. -/
def skip : Reader Unit := do skipFrom (3 * (← get).length + 3) .value []

/-! ### Data of one shape -/

/-- Says what was found in place of something else. A value that is one word, number or text
long is read first, so that what is wrong inside it is reported instead. -/
def wrongType {value : Type} (expected : Expected) : Reader value := do
  let byte ← peekValue
  let found ←
    if byte = byteOf 'n' then
      word ['n', 'u', 'l', 'l']
      pure Found.null
    else if byte = byteOf 't' then
      word ['t', 'r', 'u', 'e']
      pure (Found.boolean true)
    else if byte = byteOf 'f' then
      word ['f', 'a', 'l', 's', 'e']
      pure (Found.boolean false)
    else if byte = byteOf '-' || isDigit byte then
      match ← signedNumber byte with
      | .integer value => pure (Found.integer value)
      | .real value => pure (Found.real value)
    else if byte = byteOf '"' then
      drop
      pure (Found.text (← text))
    else if byte = byteOf '[' then pure Found.sequence
    else if byte = byteOf '\x7b' then pure Found.map
    else refuse
  differ (.wrongType found expected)

/-- A text. -/
def textValue : Reader String := do
  if (← peekValue) = byteOf '"' then
    drop
    text
  else wrongType .aText

/-- A truth value. -/
def booleanValue : Reader Bool := do
  let byte ← peekValue
  if byte = byteOf 't' then
    word ['t', 'r', 'u', 'e']
    return true
  else if byte = byteOf 'f' then
    word ['f', 'a', 'l', 's', 'e']
    return false
  else wrongType .aBoolean

/-- A whole number that 64 bits hold. -/
def wordValue : Reader UInt64 := do
  let byte ← peekValue
  if byte = byteOf '-' || isDigit byte then
    match ← signedNumber byte with
    | .integer value =>
      if 0 ≤ value then return UInt64.ofNat value.toNat
      else differ (.wrongValue (.integer value) .aWord)
    | .real value => differ (.wrongType (.real value) .aWord)
  else wrongType .aWord

/-- An object with any members. -/
def mapValue (depth : Nat) : Reader (Entries Json) := do
  if (← peekValue) = byteOf '\x7b' then
    nested depth fun depth => do
      drop
      let members ← anyMembers (← enoughSteps) depth true []
      endOfObject
      return members
  else wrongType .aMap

/-- A value of some shape, or null. -/
def optional {value : Type} (present : Reader value) : Reader (Option value) := do
  if (← peekAfterBlanks?) = some (byteOf 'n') then
    word ['n', 'u', 'l', 'l']
    return none
  else return some (← present)

/-- The next item of a list, if there is one. -/
def item? {value : Type} (first : Bool) (item : Reader value) : Reader (Option value) := do
  if ← anotherItem first then return some (← item) else return none

/-- The items of a list up to its closing bracket. -/
def itemsFrom {value : Type} (item : Reader value) : (steps : Nat) → (first : Bool) →
    Reader (List value)
  | 0, _ => throw .endOfText
  | steps + 1, first => do
    match ← item? first item with
    | some value => return value :: (← itemsFrom item steps false)
    | none => return []

/-- A list of values of one shape. -/
def sequenceValue {value : Type} (depth : Nat) (item : Reader value) : Reader (List value) := do
  if (← peekValue) = byteOf '[' then
    nested depth fun _ => do
      drop
      let items ← itemsFrom item (← enoughSteps) true
      endOfList
      return items
  else wrongType .aSequence

/-- The members of an object, each read by its key and folded into a state. -/
def foldMembers {state : Type} (member : String → state → Reader state) : (steps : Nat) →
    (first : Bool) → state → Reader state
  | 0, _, _ => throw .endOfText
  | steps + 1, first, current => do
    match ← anotherKey? first with
    | none => return current
    | some key => foldMembers member steps false (← member key current)

/-- The value of a field that may occur once. -/
def onceField {value : Type} (name : String) (earlier : Option value) (field : Reader value) :
    Reader (Option value) := do
  if earlier.isSome then differ (.duplicateField name)
  else
    colon
    return some (← field)

/-- The value of a field that nothing asks for. -/
def otherField : Reader Unit := do
  colon
  skip

/-- A record: an object with named fields, or a list of the fields in order. -/
def record {value : Type} (name : String) (depth : Nat) (fromList fromObject : Nat → Reader value) :
    Reader value := do
  let byte ← peekValue
  if byte = byteOf '[' then
    nested depth fun depth => do
      drop
      let value ← fromList depth
      endOfList
      return value
  else if byte = byteOf '\x7b' then
    nested depth fun depth => do
      drop
      let value ← fromObject depth
      endOfObject
      return value
  else wrongType (.aRecord name)

/-! ### Whole texts -/

/-- Reads all bytes; blanks may follow, and nothing else. -/
def run {value : Type} (reader : Reader value) (bytes : List UInt8) : Except Problem value :=
  match reader bytes with
  | .error problem => .error problem
  | .ok (value, rest) => if rest.all isBlank then .ok value else .error .notJson

end Reader

/-- The data that bytes hold. -/
def parse (bytes : List UInt8) : Except Problem Json :=
  Reader.run (Reader.value Reader.depthLimit) bytes

end SecretRenewal.Json
