/-
This file reads the answer to a read request. Every field may be missing and unknown fields are
skipped. A versioned store wraps the payload once more, next to its metadata; exactly that form
is unwrapped, and only once, since a payload may hold keys of the same names.
-/
import SecretRenewal.Json.Reader
import SecretRenewal.Secret

namespace SecretRenewal

/-- An answer to a read request. -/
structure SecretReply where
  /-- The payload, possibly wrapped. -/
  data : Option (Entries Json)
  /-- What the store calls the lease; empty for none. -/
  leaseId : String
  /-- Seconds for which the secret may be used. -/
  leaseSeconds : UInt64
  /-- Whether the lease can be extended. -/
  renewable : Bool

namespace SecretReply

open Json.Reader

/-- The fields read so far. -/
structure Fields where
  /-- The field `data`. -/
  data : Option (Option (Entries Json)) := none
  /-- The field `lease_id`. -/
  leaseId : Option String := none
  /-- The field `lease_duration`. -/
  leaseSeconds : Option UInt64 := none
  /-- The field `renewable`. -/
  renewable : Option Bool := none

/-- The answer with a default in place of every missing field. -/
def Fields.complete (fields : Fields) : SecretReply where
  data := fields.data.getD none
  leaseId := fields.leaseId.getD ""
  leaseSeconds := fields.leaseSeconds.getD 0
  renewable := fields.renewable.getD false

/-- Reads one member. -/
def member (depth : Nat) (key : String) (fields : Fields) : Json.Reader Fields := do
  if key = "data" then
    return { fields with
      data := ← onceField "data" fields.data (optional (mapValue depth)) }
  else if key = "lease_id" then
    return { fields with leaseId := ← onceField "lease_id" fields.leaseId textValue }
  else if key = "lease_duration" then
    return { fields with
      leaseSeconds := ← onceField "lease_duration" fields.leaseSeconds wordValue }
  else if key = "renewable" then
    return { fields with renewable := ← onceField "renewable" fields.renewable booleanValue }
  else
    otherField
    return fields

/-- Reads the fields in order. -/
def fieldsInOrder (depth : Nat) : Json.Reader Fields := do
  let data ← item? true (optional (mapValue depth))
  if data.isNone then return {}
  let leaseId ← item? false textValue
  if leaseId.isNone then return { data }
  let leaseSeconds ← item? false wordValue
  if leaseSeconds.isNone then return { data, leaseId }
  let renewable ← item? false booleanValue
  return { data, leaseId, leaseSeconds, renewable }

/-- Reads an answer. -/
def reader : Json.Reader SecretReply := do
  let fields ← record "SecretResponse" depthLimit fieldsInOrder fun depth => do
    foldMembers (member depth) (← enoughSteps) true {}
  return fields.complete

/-- The answer that bytes hold. -/
def parse (bytes : List UInt8) : Except Json.Problem SecretReply := run reader bytes

/-! ### The secret of an answer -/

/-- The payload inside a wrapped one: the member `data`, an object, when the only other member
is `metadata`, an object that names a version. -/
def unwrapped? (data : Entries Json) : Option (Entries Json) :=
  match data.length, data.get? "data", data.get? "metadata" with
  | 2, some (.object payload), some (.object metadata) =>
    if (Entries.get? metadata "version").isSome then some payload else none
  | _, _, _ => none

/-- The secret of an answer. -/
def secret (reply : SecretReply) : Secret :=
  let data := reply.data.getD []
  { payload := (unwrapped? data).getD data
    lease := Duration.ofSeconds reply.leaseSeconds
    leaseId := if reply.leaseId = "" then none else some reply.leaseId
    renewable := reply.renewable }

end SecretReply

end SecretRenewal
