/-
This file holds what a loader handles: descriptors of the secrets to load, the secrets that the
store gives for them, and the tokens that the store asks for. A token is never shown.
-/
import SecretRenewal.Duration
import SecretRenewal.Json.Value
import SecretRenewal.Text.Quoted

namespace SecretRenewal

/-- A secret to load. -/
structure SecretDescriptor where
  /-- Its path in the store. -/
  path : String
  /-- What goes in front of every key of its payload. -/
  keysPrefix : Option String
  deriving DecidableEq

namespace SecretDescriptor

/-- The key under which a key of the payload is set. -/
def configKey (descriptor : SecretDescriptor) (key : String) : String :=
  match descriptor.keysPrefix with
  | some front => front ++ key
  | none => key

/-- The payload under the keys it is set with. -/
def configEntries (descriptor : SecretDescriptor) (payload : Entries Json) :
    List (String × Json) :=
  payload.map fun entry => (descriptor.configKey entry.1, entry.2)

/-- A descriptor as it is shown. -/
def shown (descriptor : SecretDescriptor) : String :=
  "SecretDescriptor \x7b key: " ++ Text.quoted descriptor.path ++ ", keys_prefix: " ++
    Text.quotedOption descriptor.keysPrefix ++ " \x7d"

/-- A list of descriptors as it is shown. -/
def shownList (descriptors : List SecretDescriptor) : String :=
  "[" ++ ", ".intercalate (descriptors.map shown) ++ "]"

end SecretDescriptor

/-- A secret as the store gives it. -/
structure Secret where
  /-- Keys and values. -/
  payload : Entries Json
  /-- How long it may be used. -/
  lease : Duration
  /-- What the store calls the lease. -/
  leaseId : Option String := none
  /-- Whether the lease can be extended. -/
  renewable : Bool := false

/-- A token and how long it may be used. -/
structure AuthToken where
  /-- What is presented to the store. -/
  token : String
  /-- How long it may be used. -/
  lease : Duration
  deriving DecidableEq

/-- A token as it is shown: only its lease. -/
def AuthToken.shown (auth : AuthToken) : String :=
  "AuthToken \x7b token: \"[REDACTED]\", ttl: " ++ auth.lease.text ++ " \x7d"

end SecretRenewal
