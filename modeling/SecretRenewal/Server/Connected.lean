/-
This file joins a loader to the client that it alone uses, one step at a time. A read looks up the
token of the client before it sends anything, so other steps may come between the two; only the step
in which a cycle hands its token over changes the client. What gets through to the servers is kept
with the party whose read it was sent for.
-/
import SecretRenewal.Loader.Step
import SecretRenewal.Server.Client

namespace SecretRenewal

namespace Loader

variable {sink : Type}

/-- A loader with the client that it alone uses. -/
structure Connected (sink : Type) where
  /-- The loader. -/
  loader : State sink
  /-- The client. -/
  client : ServerClient
  /-- The token that the read of a party has looked up. -/
  held : Party → Option String := fun _ => none
  /-- What got through to the servers, and for whom. -/
  sent : List (Party × Http.Request) := []

/-- Something that can happen to a loader and its client. -/
inductive Happening
  /-- The loader takes a step. -/
  | acts (action : Action)
  /-- A read looks up the token of the client. -/
  | looksUp (party : Party)
  /-- A read sends its request over a network. -/
  | sends (party : Party) (network : Http.Network)

namespace Connected

/-- A loader just built, with a client that may hold any token or none. -/
def start (settings : LoaderSettings) (sinks : Target → sink) (client : ServerClient) :
    Connected sink where
  loader := State.start settings sinks
  client := client

/-- The client after a step of the loader: it may have been handed a token. -/
def clientAfter (connected : Connected sink) : Action → ServerClient
  | .tokenTaken party =>
    match (connected.loader.cycles party).map Cycle.stage with
    | some (.handingOver auth) => connected.client.setToken auth.token
    | _ => connected.client
  | _ => connected.client

/-- The path that the cycle of a party reads. -/
def path? (connected : Connected sink) (party : Party) : Option String :=
  (connected.loader.cycles party).bind fun cycle => cycle.stage.path?

/-- After a step of the loader. Whatever the cycle of a party does next, its read is over then. -/
def after (connected : Connected sink) (action : Action) (next : State sink) : Connected sink :=
  { connected with
    loader := next
    client := connected.clientAfter action
    held := fun party => if action.party? = some party then none else connected.held party }

/-- The read of a party looks up the token of the client. -/
def lookUp (connected : Connected sink) (party : Party) : Connected sink :=
  { connected with held := fun other =>
      if other = party then connected.client.token else connected.held other }

/-- The read of a path goes out with the token that was looked up for it. -/
def send [Url.DomainNames] (connected : Connected sink) (party : Party) (network : Http.Network)
    (path token : String) : Connected sink :=
  let presenting : ServerClient := { connected.client with token := some token }
  let after := (presenting.read { network with requests := [] } path).1
  { connected with sent := connected.sent ++ after.requests.map (party, ·) }

/-- A step of the loader, or of a read that is under way. -/
def step? [Url.DomainNames] [ConfigSink sink] (connected : Connected sink) :
    Happening → Option (Connected sink)
  | .acts action => (connected.loader.step? action).map (connected.after action)
  | .looksUp party => (connected.path? party).map fun _ => connected.lookUp party
  | .sends party network => do
    let path ← connected.path? party
    let token ← connected.held party
    return connected.send party network path token

/-- Steps in the order of a list. -/
def run? [Url.DomainNames] [ConfigSink sink] (connected : Connected sink)
    (happenings : List Happening) : Option (Connected sink) :=
  happenings.foldlM step? connected

end Connected

end Loader

end SecretRenewal
