/-
This file sends a request and follows where the answer leads. A request goes out only if each of
its headers may be sent and its address names a host that can be asked. An answer that names
another place to ask is followed up to ten times; on the way, a request that hands something in may
turn into one that does not. The network is a script of answers, which servers it reaches, and the
record of the requests that got through.
-/
import SecretRenewal.Http.Message
import SecretRenewal.Http.Settings
import SecretRenewal.Url.Reader

namespace SecretRenewal.Http

/-- What is between a client and the servers. -/
structure Network where
  /-- The URLs that a connection can be had for. -/
  reaches : Url → Bool
  /-- The answers that are given, one for each request that gets through. -/
  responses : List Response := []
  /-- The requests that got through, in order. -/
  requests : List Request := []

/-- A network without a connection to anywhere. -/
def Network.unreachable : Network := { reaches := fun _ => false }

/-- Why no answer was had. -/
inductive Failure
  /-- The request cannot be sent as it is. -/
  | building (url : Option Url)
  /-- No answer arrived. -/
  | sending (url : Url)
  /-- It led on for too long. -/
  | redirecting (url : Url)

/-- A failure in words. -/
def Failure.message : Failure → String
  | building none => "builder error"
  | building (some url) => "builder error for url (" ++ url.text ++ ")"
  | sending url => "error sending request for url (" ++ url.text ++ ")"
  | redirecting url => "error following redirect for url (" ++ url.text ++ ")"

/-- What a client says when an answer broke off in its body. -/
def brokenOffMessage : String := "error decoding response body"

/-- What a server gives that has nothing more to give. -/
def exhausted : Response := { status := 500 }

/-- Whether a character may stand in the host of a request. Names of hosts may hold a few more. -/
def isHostChar (char : Char) : Bool :=
  char.isAlphanum ||
    ['!', '$', '&', '\'', '(', ')', '*', '+', ',', '-', '.', ';', '=', '_', '~'].contains char

/-- The length of the longest address that is asked. -/
def addressLimit : Nat := 65534

/-- Whether a URL names a host that can be asked. -/
def isAddress (url : Url) : Bool :=
  decide (url.text.utf8ByteSize ≤ addressLimit) &&
    url.authority.any fun authority =>
      match authority.host with
      | .name name => name != "" && name.toList.all isHostChar
      | .ipv4 _ | .ipv6 _ => true

/-- Sends one request over the network. -/
def Network.exchange (network : Network) (request : Request) : Network × Option Received :=
  if network.reaches request.url then
    ({ network with
        responses := network.responses.tail
        requests := network.requests ++ [request] },
      (network.responses.head?.getD exhausted).received?)
  else (network, none)

/-- Where an answer leads, if it leads anywhere. -/
def nextUrl? [Url.DomainNames] (request : Request) (received : Received) : Option Url :=
  if [301, 302, 303, 307, 308].contains received.status then
    received.location.bind fun location => (request.url.resolve location).toOption
  else none

/-- The request that an answer leads to. Only with the statuses 307 and 308 is what it hands in
handed in again. -/
def redirected (request : Request) (received : Received) (url : Url) : Request :=
  if received.status = 307 ∨ received.status = 308 then { request with url }
  else
    { method := .get
      url := url
      headers := request.headers.filter (·.1 ≠ "content-type") }

/-- Sends a request and follows the answers, so many times at most. -/
def follow [Url.DomainNames] :
    Nat → Network → Request → Network × Except Failure Received
  | remaining, network, request =>
    match network.exchange request with
    | (network, none) => (network, .error (.sending request.url))
    | (network, some received) =>
      match nextUrl? request received with
      | none => (network, .ok received)
      | some url =>
        match remaining with
        | 0 => (network, .error (.redirecting request.url))
        | remaining + 1 => follow remaining network (redirected request received url)

/-- How often an answer is followed at most. -/
def redirectLimit : Nat := 10

/-- Sends a request whose address is given as text. A user and a password in it are not part of
where the request goes. -/
def send [Url.DomainNames] (network : Network) (method : Method) (address : String)
    (headers : List (String × String)) (body : Option Json) :
    Network × Except Failure Received :=
  match Url.parse address with
  | .error _ => (network, .error (.building none))
  | .ok url =>
    let url := url.withoutUser
    if headers.any fun header => !isHeaderValue header.2 then
      (network, .error (.building none))
    else if !isAddress url then (network, .error (.building (some url)))
    else follow redirectLimit network { method, url, headers, body }

end SecretRenewal.Http
