/-
This file holds a client of a server of secrets. It keeps the token it was last given and reads
secrets with it. How an answer is taken depends on its status first: only an answer that went
well is looked into, and every other status has one error, whatever came with it.
-/
import SecretRenewal.Http.Exchange
import SecretRenewal.Secret
import SecretRenewal.Server.Settings
import SecretRenewal.Wire.SecretReply

namespace SecretRenewal

open Http

/-- A client of a server of secrets. -/
structure ServerClient where
  /-- How the server is reached. -/
  settings : ServerSettings
  /-- The token to present. -/
  token : Option String := none

namespace ServerSettings

/-- The headers that every request has. -/
def headers (settings : ServerSettings) : List (String × String) :=
  ("user-agent", ({} : HttpSettings).userAgent) ::
    (settings.requestNamespace.map fun name => ("x-vault-namespace", name)).toList

end ServerSettings

namespace ServerClient

/-- An answer that went well, or the error that its status stands for. -/
def checkStatus (received : Received) (path : String) : Except LoadError Received :=
  if received.isSuccess then .ok received
  else if received.status = 404 then .error (.secretNotFound path)
  else if received.status = 403 then .error (.permissionDenied path)
  else if received.status = 429 then .error .rateLimited
  else .error (.unavailable
    ("Status " ++ statusText received.status ++ ": " ++ received.bodyText))

/-- What an answer that went well holds. -/
def readBody {value : Type} (received : Received)
    (parse : List UInt8 → Except Json.Problem value) : Except LoadError value :=
  match received.body with
  | none => .error (.transfer brokenOffMessage)
  | some bytes =>
    match parse bytes with
    | .error problem => .error (.ofProblem problem)
    | .ok value => .ok value

/-- The secret in an answer to a read of a path. -/
def secretOf (received : Received) (path : String) : Except LoadError Secret := do
  let reply ← readBody (← checkStatus received path) SecretReply.parse
  return reply.secret

/-- Takes a token to present from now on. -/
def setToken (client : ServerClient) (token : String) : ServerClient :=
  { client with token := some token }

/-- Reads the secret at a path. -/
def read [Url.DomainNames] (client : ServerClient) (network : Network) (path : String) :
    Network × Except LoadError Secret :=
  match client.token with
  | none => (network, .error (.authenticationFailed "no token set on client"))
  | some token =>
    match send network .get (client.settings.apiUrl path)
      (("x-vault-token", token) :: client.settings.headers) none with
    | (network, .error failure) => (network, .error (.unavailable failure.message))
    | (network, .ok received) => (network, secretOf received path)

end ServerClient

end SecretRenewal
