/-
This file holds a loader at one moment: its locks, its sinks, the interval it goes by, the cycles
that are under way, its background task, and the history of all that has happened, the newest
first. The small operations on it say what one event changes; which events may happen when is
said elsewhere.
-/
import SecretRenewal.Loader.Cycle
import SecretRenewal.Loader.Lock
import SecretRenewal.Loader.Watcher
import SecretRenewal.Sink

namespace SecretRenewal.Loader

/-- Why someone holds or wants the lock of the shared sink. -/
inductive SinkClaim
  /-- A task of the program keeps the sink to itself. -/
  | guarding (host : Nat)
  /-- A cycle is going to write. -/
  | writing (party : Party)
  deriving DecidableEq

/-- Something that happened. -/
inductive Event
  /-- A cycle asked for a token. -/
  | asked (party : Party)
  /-- A cycle was given a lease. -/
  | leased (party : Party) (lease : Duration)
  /-- A cycle handed a token to the store. -/
  | handed (party : Party) (token : String)
  /-- A cycle asked for a secret, which the store reads with the token it holds. -/
  | read (party : Party) (path : String) (presented : Option String)
  /-- A value was written. -/
  | wrote (target : Target) (key : String) (value : Json)
  /-- A cycle committed. -/
  | committed (party : Party) (target : Target) (staged : Staged)
  /-- A cycle ended. -/
  | finished (party : Party) (result : Except LoadError Unit)
  /-- A cycle was given up. -/
  | abandoned (party : Party)
  /-- A cycle broke down, and its task with it. -/
  | brokeDown (party : Party) (reason : String)
  /-- The background task told something about itself. -/
  | published (state : WatcherState)
  /-- The background task turned to a cycle, for the first time or to try again. -/
  | turned
  /-- A task learnt how the background task ended. -/
  | waited (host : Nat) (outcome : Except LoadError Unit)

/-- A loader at one moment. -/
structure State (sink : Type) where
  /-- What it was built with. -/
  settings : LoaderSettings
  /-- The reading of the clock. -/
  now : Nat := 0
  /-- The lock that a cycle holds from its start to its end. -/
  turn : Lock Party := Lock.free
  /-- The lock of the shared sink. -/
  sinkLock : Lock SinkClaim := Lock.free
  /-- What the sinks hold. -/
  sinks : Target → sink
  /-- The interval that the last commit set. -/
  interval : Option Duration := none
  /-- When the last commit was. -/
  lastRefresh : Option Nat := none
  /-- How many cycles have committed. -/
  commits : Nat := 0
  /-- The token that the store holds. -/
  storeToken : Option String := none
  /-- The cycles under way. -/
  cycles : Party → Option Cycle := fun _ => none
  /-- The background task, if one was started. -/
  watcher : Option Watcher
  /-- What has happened and when, the newest first. -/
  history : List (Nat × Event) := []

namespace State

variable {sink : Type}

/-- A loader just built, with what the sinks hold at that time. -/
def start (settings : LoaderSettings) (sinks : Target → sink) : State sink where
  settings := settings
  sinks := sinks
  watcher := if settings.watched then some {} else none

/-- Notes that something happened. -/
def note (state : State sink) (event : Event) : State sink :=
  { state with history := (state.now, event) :: state.history }

/-- Changes the cycle of a party. -/
def setCycle (state : State sink) (party : Party) (cycle : Option Cycle) : State sink :=
  { state with cycles := fun other => if other = party then cycle else state.cycles other }

/-- Changes the background task and notes what it newly tells about itself. -/
def setWatcher (state : State sink) (watcher : Watcher) : State sink :=
  let state' := { state with watcher := some watcher }
  if state.watcher.map Watcher.published = some watcher.published then state'
  else state'.note (.published watcher.published)

/-- A party begins a cycle and asks for its turn. -/
def beginCycle (state : State sink) (party : Party) (delivery : Delivery) : State sink :=
  { state.setCycle party (some { delivery }) with turn := state.turn.ask party }

/-- Moves a cycle on. Reading begins with a call. -/
def moveCycle (state : State sink) (party : Party) (cycle : Cycle) (stage : Stage) : State sink :=
  let moved := state.setCycle party (some { cycle with stage })
  match stage with
  | .reading gathering => moved.note (.read party gathering.current.path state.storeToken)
  | _ => moved

/-- Ends a cycle without more ado: it leaves the lock of the sink first and then its turn. -/
def endCycle (state : State sink) (party : Party) : State sink :=
  { state.setCycle party none with
    sinkLock := state.sinkLock.leave (.writing party)
    turn := state.turn.leave party }

/-- Ends a cycle with a result. The background task goes by it. -/
def finish (state : State sink) (party : Party) (result : Except LoadError Unit) : State sink :=
  let ended := (state.endCycle party).note (.finished party result)
  match party, state.watcher with
  | .watcher, some watcher =>
    match watcher.phase with
    | .refreshing attempt =>
      ended.setWatcher (watcher.afterCycle state.settings state.now attempt result)
    | _ => ended
  | _, _ => ended

/-- Ends a cycle because a call in it broke down. The task that ran it is over. -/
def breakDown (state : State sink) (party : Party) (reason : String) : State sink :=
  let ended := (state.endCycle party).note (.brokeDown party reason)
  match party, state.watcher with
  | .watcher, some watcher => ended.setWatcher { watcher with phase := .brokeDown reason }
  | _, _ => ended

/-- Writes values into a sink, one after another. -/
def write [ConfigSink sink] (state : State sink) (target : Target)
    (entries : List (String × Json)) : State sink :=
  let written := ConfigSink.setAll (state.sinks target) entries
  { state with
    sinks := fun other => if other = target then written else state.sinks other
    history := (entries.reverse.map fun entry => (state.now, .wrote target entry.1 entry.2)) ++
      state.history }

/-- Writes what a cycle has staged and goes by its interval from now on. -/
def commit [ConfigSink sink] (state : State sink) (party : Party) (target : Target)
    (staged : Staged) : State sink :=
  let written := state.write target staged.entries
  { written with
    interval := some staged.interval
    lastRefresh := some state.now
    commits := state.commits + 1 }.note (.committed party target staged)

/-! ### Who can go on -/

/-- Whether a party may go on with its work. For the background task that is one branch of two, and
not the first. Requests to stop come between its steps, so it makes no difference that it looks at
them before each of these. -/
def mayAct (state : State sink) : Party → Bool
  | .host _ => true
  | .watcher => state.watcher.any fun watcher => watcher.workBranch? == some .work

/-- The cycle that a party may move on. -/
def activeCycle? (state : State sink) (party : Party) : Option Cycle :=
  if state.mayAct party then state.cycles party else none

/-- Whether a cycle that is about to write may do so. -/
def mayWrite (state : State sink) (party : Party) : Delivery → Bool
  | .direct _ => true
  | .locking => state.sinkLock.isHeldBy (.writing party)

/-- Whether a cycle that is about to write has still to ask for the lock of the sink. -/
def hasToAsk (state : State sink) (party : Party) : Delivery → Bool
  | .direct _ => false
  | .locking => decide (SinkClaim.writing party ∉ state.sinkLock.claims)

/-- Whether a party has a cycle that can go on without an answer from outside. -/
def cycleReady (state : State sink) (party : Party) : Bool :=
  (state.activeCycle? party).any fun cycle =>
    match cycle.stage with
    | .queued => state.turn.isHeldBy party
    | .staged _ => state.hasToAsk party cycle.delivery || state.mayWrite party cycle.delivery
    | _ => false

/-- Whether the background task has turned to a cycle that it has not begun. -/
def isTurnedToCycle (state : State sink) (watcher : Watcher) : Bool :=
  match watcher.phase with
  | .refreshing _ => (state.cycles .watcher).isNone
  | _ => false

/-- Whether the background task can go on without an answer from outside, its cycle apart. -/
def watcherReady (state : State sink) : Bool :=
  state.watcher.any fun watcher =>
    watcher.phase.isRunning && (watcher.stopRequested || state.isTurnedToCycle watcher ||
      match watcher.phase with
      | .starting => true
      | .waiting alarm => alarm.seen != state.commits || decide (alarm.deadline ≤ state.now)
      | .pausing _ wake => decide (wake ≤ state.now)
      | _ => false)

/-- Whether everyone waits, for an answer from outside or for the clock. -/
def quiet (state : State sink) : Bool :=
  !state.watcherReady && !state.turn.holder.any state.cycleReady

/-- When the background task goes on by the clock alone, if it ever does. -/
def wake? (state : State sink) : Option Nat := state.watcher.bind fun watcher => watcher.phase.wake?

end State

end SecretRenewal.Loader
