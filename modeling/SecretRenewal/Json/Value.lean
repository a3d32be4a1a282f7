/-
This file holds data of the interchange format: null, truth values, numbers, texts, lists, and
objects whose members stand in ascending order of their keys. A number is an integer or a
floating-point number, and the two are never the same even where their values agree.
-/
import SecretRenewal.Binary64.Basic
import SecretRenewal.Entries

namespace SecretRenewal

/-- A piece of data. -/
inductive Json
  /-- The absence of a value. -/
  | null
  /-- A truth value. -/
  | boolean (value : Bool)
  /-- A whole number. -/
  | integer (value : Int)
  /-- A floating-point number. -/
  | real (value : Binary64)
  /-- A text. -/
  | text (value : String)
  /-- A list. -/
  | list (items : List Json)
  /-- An object, its members in ascending order of their keys. -/
  | object (members : List (String × Json))

namespace Json

instance : Inhabited Json := ⟨null⟩

mutual

/-- Whether two pieces of data are the same. The two floating-point zeros are. -/
def same : Json → Json → Bool
  | null, null => true
  | boolean first, boolean second => first == second
  | integer first, integer second => first == second
  | real first, real second => first.datum.sameNumber second.datum
  | text first, text second => first == second
  | list first, list second => sameItems first second
  | object first, object second => sameMembers first second
  | _, _ => false

/-- Whether two lists hold the same data. -/
def sameItems : List Json → List Json → Bool
  | [], [] => true
  | first :: firstRest, second :: secondRest => same first second && sameItems firstRest secondRest
  | _, _ => false

/-- Whether two objects hold the same data under the same keys. -/
def sameMembers : List (String × Json) → List (String × Json) → Bool
  | [], [] => true
  | (firstKey, first) :: firstRest, (secondKey, second) :: secondRest =>
    firstKey == secondKey && same first second && sameMembers firstRest secondRest
  | _, _ => false

end

/-- The text of a value that is one. -/
def asText? : Json → Option String
  | text value => some value
  | _ => none

end Json

end SecretRenewal
