/-
This file holds the variables a program is started with. A variable has any bytes as its value;
looked up, a value that is no text counts as not being there.
-/
import SecretRenewal.Text.Utf8

namespace SecretRenewal

/-- Variables and the bytes they are set to. -/
abbrev Environment := List (String × List UInt8)

namespace Environment

/-- The bytes a variable is set to. -/
def bytes? (environment : Environment) (name : String) : Option (List UInt8) :=
  (environment.find? fun setting => setting.1 == name).map Prod.snd

/-- The text of a variable that is set to one. -/
def text? (environment : Environment) (name : String) : Option String :=
  (environment.bytes? name).bind Text.decode?

end Environment

end SecretRenewal
