/-
This file reads the answer to a login. The token and its lease have to be there, policies and
the mark that the lease can be extended may be missing, and unknown fields are skipped.
-/
import SecretRenewal.Json.Reader
import SecretRenewal.Secret

namespace SecretRenewal

/-- An answer to a login. -/
structure LoginReply where
  /-- The token. -/
  token : String
  /-- The policies attached to it. -/
  policies : List String
  /-- Seconds for which the token may be used. -/
  leaseSeconds : UInt64
  /-- Whether the lease can be extended. -/
  renewable : Bool
  deriving DecidableEq

namespace LoginReply

open Json.Reader

/-- The name that the inner record has in error texts. -/
def innerName : String := "AuthData"

/-- The name that the outer record has in error texts. -/
def outerName : String := "AuthResponse"

/-- The fields read so far. -/
structure Fields where
  /-- The field `client_token`. -/
  token : Option String := none
  /-- The field `policies`. -/
  policies : Option (List String) := none
  /-- The field `lease_duration`. -/
  leaseSeconds : Option UInt64 := none
  /-- The field `renewable`. -/
  renewable : Option Bool := none

/-- Reads one member of the inner record. -/
def member (depth : Nat) (key : String) (fields : Fields) : Json.Reader Fields := do
  if key = "client_token" then
    return { fields with token := ← onceField "client_token" fields.token textValue }
  else if key = "policies" then
    return { fields with
      policies := ← onceField "policies" fields.policies (sequenceValue depth textValue) }
  else if key = "lease_duration" then
    return { fields with
      leaseSeconds := ← onceField "lease_duration" fields.leaseSeconds wordValue }
  else if key = "renewable" then
    return { fields with renewable := ← onceField "renewable" fields.renewable booleanValue }
  else
    otherField
    return fields

/-- The answer of the inner record's members. -/
def Fields.complete (fields : Fields) : Json.Reader LoginReply := do
  match fields.token, fields.leaseSeconds with
  | none, _ => differ (.missingField "client_token")
  | some _, none => differ (.missingField "lease_duration")
  | some token, some leaseSeconds =>
    return { token, policies := fields.policies.getD [], leaseSeconds
             renewable := fields.renewable.getD false }

/-- Reads the fields of the inner record in order. -/
def fieldsInOrder (depth : Nat) : Json.Reader LoginReply := do
  match ← item? true textValue with
  | none => differ (.wrongLength 0 innerName 4)
  | some token =>
    let policies ← item? false (sequenceValue depth textValue)
    match ← if policies.isSome then item? false wordValue else pure none with
    | none => differ (.wrongLength 2 innerName 4)
    | some leaseSeconds =>
      let renewable ← item? false booleanValue
      return { token, policies := policies.getD [], leaseSeconds
               renewable := renewable.getD false }

/-- Reads the inner record. -/
def inner (depth : Nat) : Json.Reader LoginReply :=
  record innerName depth fieldsInOrder fun depth => do
    let fields ← foldMembers (member depth) (← enoughSteps) true {}
    fields.complete

/-- Reads one member of the outer record. -/
def outerMember (depth : Nat) (key : String) (auth : Option LoginReply) :
    Json.Reader (Option LoginReply) := do
  if key = "auth" then onceField "auth" auth (inner depth)
  else
    otherField
    return auth

/-- Reads an answer. -/
def reader : Json.Reader LoginReply :=
  record outerName depthLimit
    (fun depth => do
      match ← item? true (inner depth) with
      | some reply => return reply
      | none => differ (.wrongLength 0 outerName 1))
    (fun depth => do
      match ← foldMembers (outerMember depth) (← enoughSteps) true none with
      | some reply => return reply
      | none => differ (.missingField "auth"))

/-- The answer that bytes hold. -/
def parse (bytes : List UInt8) : Except Json.Problem LoginReply := run reader bytes

/-- The token of an answer. -/
def authToken (reply : LoginReply) : AuthToken :=
  ⟨reply.token, Duration.ofSeconds reply.leaseSeconds⟩

end LoginReply

end SecretRenewal
