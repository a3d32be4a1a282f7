/-
This file obtains tokens by a login. A service presents a text that it finds in a file, under a
role, and is given a token if the server knows it. That the login is refused is one error, however
the server refuses it; every other answer is taken as an answer to a read is.
-/
import SecretRenewal.Server.Client
import SecretRenewal.Text.Blank
import SecretRenewal.Wire.LoginReply

namespace SecretRenewal

open Http

/-- A source that logs in with the account of a service. -/
structure ServiceAccount where
  /-- How the server is reached. -/
  settings : ServerSettings
  deriving DecidableEq

namespace ServiceAccount

/-- The path of the login. -/
def loginPath (account : ServiceAccount) : String :=
  "auth/" ++ account.settings.authMount ++ "/login"

/-- What the login presents, from what its file holds, if there is one. -/
def presented (account : ServiceAccount) (file : Option (List UInt8)) :
    Except LoadError String :=
  let failed (reason : String) : Except LoadError String := .error (.authenticationFailed
    ("reading service account token " ++ account.settings.tokenPath ++ ": " ++ reason))
  match file with
  | none => failed "No such file or directory (os error 2)"
  | some bytes =>
    match Text.decode? bytes with
    | none => failed "stream did not contain valid UTF-8"
    | some text => .ok (Text.trimmed text)

/-- What a login hands in. -/
def loginBody (account : ServiceAccount) (jwt : String) : Json :=
  .object (Entries.setAll [] [("role", .text account.settings.role), ("jwt", .text jwt)])

/-- The token in an answer to a login. -/
def tokenOf (account : ServiceAccount) (received : Received) : Except LoadError AuthToken :=
  match ServerClient.checkStatus received account.loginPath with
  | .error (.permissionDenied _) | .error (.secretNotFound _) =>
    .error (.authenticationFailed ("login rejected for role " ++ account.settings.role))
  | .error error => .error error
  | .ok received =>
    match ServerClient.readBody received LoginReply.parse with
    | .error error => .error error
    | .ok reply => .ok reply.authToken

/-- Logs in with what a file holds. -/
def token [Url.DomainNames] (account : ServiceAccount) (file : Option (List UInt8))
    (network : Network) : Network × Except LoadError AuthToken :=
  match account.presented file with
  | .error error => (network, .error error)
  | .ok jwt =>
    match send network .post (account.settings.apiUrl account.loginPath)
      (("content-type", "application/json") :: account.settings.headers)
      (some (account.loginBody jwt)) with
    | (network, .error failure) => (network, .error (.unavailable failure.message))
    | (network, .ok received) => (network, account.tokenOf received)

end ServiceAccount

end SecretRenewal
