/-
This file joins a loader to a server: tokens come from a fixed token or from a login, secrets come
from a client of the server, and both go over one network.
-/
import SecretRenewal.Auth.FixedToken
import SecretRenewal.Auth.ServiceAccount
import SecretRenewal.Loader.Foreground

namespace SecretRenewal

open Http Loader

/-- Where the tokens for a server come from. -/
inductive TokenSource
  /-- One token for all time. -/
  | fixed (source : FixedToken)
  /-- A login with what a file holds, if there is one. -/
  | login (account : ServiceAccount) (file : Option (List UInt8))

/-- A client and the network it uses. -/
structure Live where
  /-- The client. -/
  client : ServerClient
  /-- The network. -/
  network : Network

namespace TokenSource

/-- Asks for a token. -/
def ask [Url.DomainNames] (source : TokenSource) (live : Live) :
    Live × Except LoadError AuthToken :=
  match source with
  | .fixed source => (live, .ok source.token)
  | .login account file =>
    let (network, answer) := account.token file live.network
    ({ live with network }, answer)

/-- A server and a source of tokens, as cycles call them. -/
def outside [Url.DomainNames] (source : TokenSource) : Outside Live where
  askToken := source.ask
  handToken live token := { live with client := live.client.setToken token }
  read live path :=
    let (network, answer) := live.client.read live.network path
    ({ live with network }, answer)

end TokenSource

end SecretRenewal
