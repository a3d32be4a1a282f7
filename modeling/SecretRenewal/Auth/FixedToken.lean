/-
This file holds the simplest source of tokens: one token, given from outside, with one lease,
handed out as often as it is asked for.
-/
import SecretRenewal.Environment
import SecretRenewal.Error
import SecretRenewal.Secret

namespace SecretRenewal

/-- A source that always hands out the same token. -/
structure FixedToken where
  /-- The token and its lease. -/
  auth : AuthToken
  deriving DecidableEq

namespace FixedToken

/-- The variable that holds the token. -/
def variableName : String := "VAULT_TOKEN"

/-- The source for the token in the environment; it has to be there and not be empty. -/
def fromEnvironment (environment : Environment) (lease : Duration) :
    Except LoadError FixedToken :=
  match environment.text? variableName with
  | some token =>
    if token = "" then .error (.authenticationFailed "VAULT_TOKEN is not set")
    else .ok ⟨⟨token, lease⟩⟩
  | none => .error (.authenticationFailed "VAULT_TOKEN is not set")

/-- Hands out the token. -/
def token (source : FixedToken) : AuthToken := source.auth

end FixedToken

end SecretRenewal
