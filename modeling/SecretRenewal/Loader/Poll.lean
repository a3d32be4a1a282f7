/-
This file says what the background task does when it is polled. It goes on from one step to the
next, and wherever it waits the branch that it takes says which that is. What its work could do
comes from outside, one thing after another; it is only asked for where the branch is the work. A
poll is over when nothing is ready any more, and no step of others comes into it.
-/
import SecretRenewal.Loader.Step

namespace SecretRenewal.Loader

/-- Whether an action is a step of the background task. -/
def Action.isBackground : Action → Bool
  | .arm | .rearm | .due | .resume => true
  | action => action.party? == some .watcher

variable {sink : Type}

namespace State

/-- What the background task does next in a poll, and what its work could do after that. -/
def polled? (state : State sink) (offered : List Action) : Option (Action × List Action) := do
  let watcher ← state.watcher
  match watcher.phase with
  | .starting => some (.arm, offered)
  | .waiting alarm =>
    match ← watcher.waitBranch? alarm state.commits state.now with
    | .stop => some (.quit, offered)
    | .interval => some (.rearm, offered)
    | .timer => some (.due, offered)
  | .refreshing _ | .pausing _ _ =>
    match ← watcher.workBranch? with
    | .stop => some (.quit, offered)
    | .work =>
      match offered with
      | [] => none
      | work :: rest => if work.isBackground then some (work, rest) else none
  | .ended _ | .brokeDown _ => none

end State

end SecretRenewal.Loader
