/-
This file says what can be wrong with a text that should hold data of a certain shape. Either
the text ends too early, or it is no data at all, or it is data of another shape; only in the
last case is there more to say, and this file says how. Whoever reads a text from a stream may
also find the stream broken, which is a fault of its own and may have others behind it.
-/
import SecretRenewal.Binary64.Shortest
import SecretRenewal.Text.Quoted

namespace SecretRenewal.Json

/-- What a reader looked for. -/
inductive Expected
  /-- A text. -/
  | aText
  /-- A truth value. -/
  | aBoolean
  /-- A whole number that 64 bits hold. -/
  | aWord
  /-- An object with any members. -/
  | aMap
  /-- A list. -/
  | aSequence
  /-- A record with named fields. -/
  | aRecord (name : String)
  deriving DecidableEq

/-- What a reader found instead. -/
inductive Found
  /-- The absence of a value. -/
  | null
  /-- A truth value. -/
  | boolean (value : Bool)
  /-- A whole number. -/
  | integer (value : Int)
  /-- A floating-point number. -/
  | real (value : Binary64)
  /-- A text. -/
  | text (value : String)
  /-- A list. -/
  | sequence
  /-- An object. -/
  | map
  deriving DecidableEq

/-- How data differs from the shape a reader looked for. -/
inductive Mismatch
  /-- A value of another kind. -/
  | wrongType (found : Found) (expected : Expected)
  /-- A value of the right kind that is out of range. -/
  | wrongValue (found : Found) (expected : Expected)
  /-- A field is not there. -/
  | missingField (name : String)
  /-- A field is there twice. -/
  | duplicateField (name : String)
  /-- A record written as a list has too few items. -/
  | wrongLength (items : Nat) (record : String) (fields : Nat)
  deriving DecidableEq

/-- What is wrong with a text. -/
inductive Problem
  /-- The text ends too early. -/
  | endOfText
  /-- The text is no data. -/
  | notJson
  /-- The data has another shape. -/
  | mismatch (difference : Mismatch)
  deriving DecidableEq

/-- What reading or writing data fails with. -/
inductive Fault
  /-- A text is not what it should be. -/
  | text (problem : Problem)
  /-- The stream that held the text broke. What is behind that is given in words, from the outside
  in. -/
  | stream (behind : List String)
  deriving DecidableEq

/-- What is behind a fault. Of a text there is nothing more to say. -/
def Fault.behind : Fault → List String
  | text _ => []
  | stream behind => behind

/-- What was looked for, in words. -/
def Expected.describe : Expected → String
  | aText => "a string"
  | aBoolean => "a boolean"
  | aWord => "u64"
  | aMap => "a map"
  | aSequence => "a sequence"
  | aRecord name => "struct " ++ name

/-- What was found, in words. -/
def Found.describe : Found → String
  | null => "null"
  | boolean value => "boolean `" ++ toString value ++ "`"
  | integer value => "integer `" ++ toString value ++ "`"
  | real value => "floating point `" ++ value.shortestText ++ "`"
  | text value => "string " ++ Text.quoted value
  | sequence => "sequence"
  | map => "map"

/-- A mismatch in words. -/
def Mismatch.message : Mismatch → String
  | wrongType found expected =>
    "invalid type: " ++ found.describe ++ ", expected " ++ expected.describe
  | wrongValue found expected =>
    "invalid value: " ++ found.describe ++ ", expected " ++ expected.describe
  | missingField name => "missing field `" ++ name ++ "`"
  | duplicateField name => "duplicate field `" ++ name ++ "`"
  | wrongLength items record fields =>
    "invalid length " ++ toString items ++ ", expected struct " ++ record ++ " with " ++
      toString fields ++ (if fields = 1 then " element" else " elements")

end SecretRenewal.Json
