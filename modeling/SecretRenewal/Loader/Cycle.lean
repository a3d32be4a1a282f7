/-
This file holds one refresh cycle of a loader: who runs it, where its values go, and how far it
has got. A cycle waits for its turn, asks for a token, hands the token to the store, reads the
secrets one by one, and only then, with every value in hand, writes. What it has read so far is
its own, so a cycle that ends early has changed nothing.
-/
import SecretRenewal.Lease
import SecretRenewal.Secret

namespace SecretRenewal.Loader

/-- Who runs cycles: the background task, or one of the tasks of the program around it. -/
inductive Party
  /-- The background task. -/
  | watcher
  /-- A task of the program. -/
  | host (number : Nat)
  deriving DecidableEq

/-- A sink that cycles write into. -/
inductive Target
  /-- The sink that tasks share, and that the background task writes into. -/
  | shared
  /-- A sink of the program's own. -/
  | own (number : Nat)
  deriving DecidableEq

/-- How the values of a cycle reach their sink. -/
inductive Delivery
  /-- Straight into a sink at hand. -/
  | direct (target : Target)
  /-- Into the shared sink, which is locked only to write. -/
  | locking
  deriving DecidableEq

/-- The sink that the values go to. -/
def Delivery.target : Delivery → Target
  | direct target => target
  | locking => .shared

/-- Everything a cycle is going to write, and the interval to go by afterwards. -/
structure Staged where
  /-- Keys and values, in the order in which they are written. -/
  entries : List (String × Json)
  /-- The interval. -/
  interval : Duration

/-- What a cycle has read, and what is left to read. -/
structure Gathering where
  /-- The lease of the token. -/
  tokenLease : Duration
  /-- The entries read so far. -/
  entries : List (String × Json) := []
  /-- The leases of the secrets read so far. -/
  leases : List Duration := []
  /-- The secret being read. -/
  current : SecretDescriptor
  /-- The secrets still to be read after it. -/
  remaining : List SecretDescriptor

/-- The interval for a token and the secrets read with it; no secrets count as a zero lease. -/
def intervalFor (tokenLease : Duration) (leases : List Duration) : Duration :=
  Lease.refreshInterval tokenLease ((Lease.shortest? leases).getD Duration.zero)

/-- How far a cycle has got. -/
inductive Stage
  /-- It waits for its turn. -/
  | queued
  /-- It waits for a token. -/
  | authenticating
  /-- It hands the token to the store. -/
  | handingOver (auth : AuthToken)
  /-- It waits for a secret. -/
  | reading (gathering : Gathering)
  /-- It has everything and is about to write. -/
  | staged (staged : Staged)

/-- A cycle. -/
structure Cycle where
  /-- How its values reach their sink. -/
  delivery : Delivery
  /-- How far it has got. -/
  stage : Stage := .queued

/-- Where a cycle goes once the store has its token: to the first secret. -/
def Stage.afterToken (secrets : List SecretDescriptor) (tokenLease : Duration) : Stage :=
  match secrets with
  | [] => .staged ⟨[], intervalFor tokenLease []⟩
  | current :: remaining => .reading { tokenLease, current, remaining }

/-- Where a cycle goes once a secret has been read: to the next one, or on to writing. -/
def Stage.afterRead (gathering : Gathering) (secret : Secret) : Stage :=
  let entries := gathering.entries ++ gathering.current.configEntries secret.payload
  let leases := gathering.leases ++ [secret.lease]
  match gathering.remaining with
  | [] => .staged ⟨entries, intervalFor gathering.tokenLease leases⟩
  | current :: remaining =>
    .reading { tokenLease := gathering.tokenLease, entries, leases, current, remaining }

/-- The path being read. -/
def Stage.path? : Stage → Option String
  | .reading gathering => some gathering.current.path
  | _ => none

/-- What is ready to be written. -/
def Stage.staged? : Stage → Option Staged
  | .staged batch => some batch
  | _ => none

/-- Whether a secret is being read. -/
def Stage.isReading (stage : Stage) : Bool := stage.path?.isSome

end SecretRenewal.Loader
