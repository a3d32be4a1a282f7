/-
This file holds the background task of a loader, apart from the cycles it runs. It waits for
the current interval, runs a cycle, and tries a failed one again after a fixed delay as often as
it may. When that was to no avail it ends, or goes back to waiting for the interval it had. Wherever
it waits it waits for several things at once, and looks at them in a fixed order, at a request to
stop before all others. Such a request is a flag that is never taken back.
-/
import SecretRenewal.Backoff.Policy
import SecretRenewal.Clock
import SecretRenewal.Error
import SecretRenewal.Loader.Config
import SecretRenewal.Text.Quoted

namespace SecretRenewal.Loader

/-- What the background task tells about itself. -/
inductive WatcherState
  /-- It waits for the next cycle. -/
  | idle
  /-- A cycle or its retries are running. -/
  | refreshing
  /-- It has ended. -/
  | stopped
  deriving DecidableEq

/-- A timer set for the next cycle. -/
structure Alarm where
  /-- When it was set. -/
  since : Nat
  /-- When it goes off. -/
  deadline : Nat
  /-- How many cycles had committed when it was set; a further one sets it anew. -/
  seen : Nat

/-- What the background task is doing. -/
inductive Phase
  /-- It is about to set its timer. -/
  | starting
  /-- It waits for its timer. -/
  | waiting (alarm : Alarm)
  /-- It runs a cycle or is about to begin one, after so many retries. -/
  | refreshing (attempt : UInt32)
  /-- It waits before the next retry, after so many. -/
  | pausing (attempt : UInt32) (wake : Nat)
  /-- It has ended. -/
  | ended (outcome : Except LoadError Unit)
  /-- It has broken down. -/
  | brokeDown (reason : String)

/-- Who may learn how the background task ends. -/
inductive Handle
  /-- Whoever asks first. -/
  | kept
  /-- A task that has asked and waits. -/
  | taken (host : Nat)
  /-- Nobody any more. -/
  | gone
  deriving DecidableEq

/-- The background task. -/
structure Watcher where
  /-- What it is doing. -/
  phase : Phase := .starting
  /-- What it tells about itself. -/
  published : WatcherState := .idle
  /-- Whether it was asked to stop. -/
  stopRequested : Bool := false
  /-- Who may learn how it ends. -/
  handle : Handle := .kept

/-- What the background task is called in messages. A letter stands for its number, which tells
nothing about it. -/
def taskLabel : String := "task N"

/-- Why a task that broke down ended. -/
def abortReason (reason : String) : String :=
  taskLabel ++ " panicked with message " ++ Text.quoted reason

/-- How the background task ended, if it has. -/
def Phase.outcome? : Phase → Option (Except LoadError Unit)
  | ended outcome => some outcome
  | brokeDown reason => some (.error (.watcherAborted (abortReason reason)))
  | _ => none

/-- Whether the background task still runs. -/
def Phase.isRunning (phase : Phase) : Bool := phase.outcome?.isNone

/-- When the phase is over by the clock alone, if it is ever. -/
def Phase.wake? : Phase → Option Nat
  | waiting alarm => some alarm.deadline
  | pausing _ wake => some wake
  | _ => none

/-! ### Waiting for several things at once -/

/-- The first of some branches that is ready. Those behind it are not looked at. -/
def select {branch : Type} (branches : List (Bool × branch)) : Option branch :=
  (branches.find? Prod.fst).map Prod.snd

/-- Where a background task goes on that waits for its timer. -/
inductive WaitBranch
  /-- It ends. -/
  | stop
  /-- It sets its timer anew. -/
  | interval
  /-- It turns to a cycle. -/
  | timer
  deriving DecidableEq

/-- Where a background task goes on that runs a cycle or its retries. -/
inductive WorkBranch
  /-- It ends. -/
  | stop
  /-- It goes on with its work. -/
  | work
  deriving DecidableEq

/-- The branch taken by a background task that waits for its timer. -/
def Watcher.waitBranch? (watcher : Watcher) (alarm : Alarm) (commits now : Nat) :
    Option WaitBranch :=
  select [(watcher.stopRequested, .stop), (alarm.seen != commits, .interval),
    (decide (alarm.deadline ≤ now), .timer)]

/-- The branch taken by a background task that runs a cycle or its retries. Its work may turn out to
have to wait as well. -/
def Watcher.workBranch? (watcher : Watcher) : Option WorkBranch :=
  select [(watcher.stopRequested, .stop), (true, .work)]

/-- Whether a background task comes to its end where it waits. Before it has set its timer it does
not wait for anything. -/
def Watcher.comesToStop (watcher : Watcher) (commits now : Nat) : Bool :=
  match watcher.phase with
  | .waiting alarm => watcher.waitBranch? alarm commits now == some .stop
  | .refreshing _ | .pausing _ _ => watcher.workBranch? == some .stop
  | _ => false

/-! ### Timers and retries -/

/-- How the background task tries again: at once and then after a fixed delay. -/
def retryPolicy (settings : LoaderSettings) : Backoff :=
  Backoff.fixed settings.maxRetry settings.retryDelay

/-- The timer set when a wait begins. Before the first commit the initial delay counts. -/
def Alarm.armed (settings : LoaderSettings) (interval : Option Duration) (commits now : Nat) :
    Alarm :=
  ⟨now, Clock.wakeTime now (interval.getD settings.initialDelay), commits⟩

/-- What a wait turns into when a cycle commits during it. Its end has to be an instant. -/
def Phase.rearmed (interval : Duration) (commits now : Nat) : Phase :=
  if Clock.reaches now interval then .waiting ⟨now, Clock.tickAfter now interval, commits⟩
  else .brokeDown "overflow when adding duration to instant"

/-- The background task after a cycle of its own has ended with a result. -/
def Watcher.afterCycle (watcher : Watcher) (settings : LoaderSettings) (now : Nat)
    (attempt : UInt32) (result : Except LoadError Unit) : Watcher :=
  match (retryPolicy settings).afterCall (fun _ => true) .zero attempt result with
  | .done () => { watcher with phase := .starting, published := .idle }
  | .retry delay => { watcher with phase := .pausing attempt (Clock.wakeTime now delay) }
  | .giveUp given =>
    if settings.stopOnFailure then
      { watcher with
        phase := .ended (.error (.retryExhausted given.attempts given.failure))
        published := .stopped }
    else { watcher with phase := .starting, published := .idle }

end SecretRenewal.Loader
