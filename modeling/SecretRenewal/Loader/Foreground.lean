/-
This file runs a whole cycle without interruption, against a source of tokens and a store that
answer at once. The calls of the cycle and their answers, in order, are the actions of its run: one
call for a token, one to hand it to the store, and one for each secret up to the first that fails.
-/
import SecretRenewal.Loader.Step

namespace SecretRenewal.Loader

/-- What a cycle calls, in a world that the calls may change. -/
structure Outside (world : Type) where
  /-- Asks for a token. -/
  askToken : world → world × Except LoadError AuthToken
  /-- Hands a token to the store. -/
  handToken : world → String → world
  /-- Reads the secret at a path. -/
  read : world → String → world × Except LoadError Secret

namespace Outside

variable {world : Type}

/-- What a cycle does once it has everything. The shared sink has to be asked for. -/
def writeActions (party : Party) : Delivery → List Action
  | .direct _ => [.commit party]
  | .locking => [.askSink party, .commit party]

/-- The reads of a cycle, up to the first that fails, and the commit if none does. -/
def readActions (outside : Outside world) (party : Party) (delivery : Delivery) :
    world → List SecretDescriptor → world × List Action
  | before, [] => (before, writeActions party delivery)
  | before, secret :: rest =>
    match outside.read before secret.path with
    | (after, .error error) => (after, [.readReturned party (.error error)])
    | (after, .ok value) =>
      let (last, actions) := outside.readActions party delivery after rest
      (last, .readReturned party (.ok value) :: actions)

/-- The actions of a cycle from its call for a token on. -/
def callActions (outside : Outside world) (before : world) (party : Party) (delivery : Delivery)
    (secrets : List SecretDescriptor) : world × List Action :=
  match outside.askToken before with
  | (after, .error error) => (after, [.enter party, .tokenReturned party (.error error)])
  | (after, .ok auth) =>
    let (last, actions) := outside.readActions party delivery
      (outside.handToken after auth.token) secrets
    (last, .enter party :: .tokenReturned party (.ok auth) :: .tokenTaken party :: actions)

/-- The actions of a whole cycle of a task. -/
def cycleActions (outside : Outside world) (before : world) (host : Nat) (delivery : Delivery)
    (secrets : List SecretDescriptor) : world × List Action :=
  let (last, actions) := outside.callActions before (.host host) delivery secrets
  (last, .begin host delivery :: actions)

end Outside

namespace State

variable {sink : Type}

/-- The result of the cycle that a party ended last. -/
def lastResult? (state : State sink) (party : Party) : Option (Except LoadError Unit) :=
  state.history.findSome? fun
    | (_, .finished other result) => if other = party then some result else none
    | _ => none

/-- Runs a whole cycle of a task. -/
def refresh [ConfigSink sink] {world : Type} (state : State sink) (outside : Outside world)
    (before : world) (host : Nat) (delivery : Delivery) : world × Option (State sink) :=
  let (after, actions) := outside.cycleActions before host delivery state.settings.secrets
  (after, state.run? actions)

end State

end SecretRenewal.Loader
