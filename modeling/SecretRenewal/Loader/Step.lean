/-
This file says what can happen to a loader. An action is one step of a cycle, of the background
task, of the program around them, or of the clock; `step?` gives the loader after it, or nothing
where the action cannot happen. Answers from outside come with the action, so a run is a list of
actions, and every schedule is such a list.
-/
import SecretRenewal.Loader.State

namespace SecretRenewal.Loader

/-- Something that can happen to a loader. -/
inductive Action
  /-- A task of the program begins a cycle. -/
  | begin (host : Nat) (delivery : Delivery)
  /-- A cycle whose turn it is asks for a token. -/
  | enter (party : Party)
  /-- The token arrives, or an error in its place. -/
  | tokenReturned (party : Party) (answer : Except LoadError AuthToken)
  /-- The store has taken the token. -/
  | tokenTaken (party : Party)
  /-- A secret arrives, or an error in its place. -/
  | readReturned (party : Party) (answer : Except LoadError Secret)
  /-- A call breaks down. -/
  | callBroke (party : Party) (reason : String)
  /-- A cycle that has everything asks for the shared sink. -/
  | askSink (party : Party)
  /-- A cycle writes what it has staged. -/
  | commit (party : Party)
  /-- The sink breaks down after so many of the values. -/
  | writeBroke (party : Party) (written : Nat) (reason : String)
  /-- A task of the program gives up its cycle. -/
  | abandon (host : Nat)
  /-- The background task sets its timer. -/
  | arm
  /-- The background task sets its timer anew after a commit. -/
  | rearm
  /-- The timer goes off, and the background task turns to a cycle. -/
  | due
  /-- The pause before a retry is over, and the background task turns to a cycle again. -/
  | resume
  /-- The background task begins the cycle that it has turned to. -/
  | launch
  /-- The background task is asked to stop. -/
  | requestStop
  /-- The background task, asked to stop, ends. -/
  | quit
  /-- A task of the program locks the shared sink, or queues for it. -/
  | lockSink (host : Nat)
  /-- A task of the program lets go of the shared sink, or leaves the queue for it. -/
  | unlockSink (host : Nat)
  /-- A task of the program begins to wait for the end of the background task. -/
  | beginWait (host : Nat)
  /-- A task of the program learns how the background task ended. -/
  | finishWait (host : Nat)
  /-- A task of the program gives up waiting. -/
  | dropWait (host : Nat)
  /-- Time passes. -/
  | advance (time : Nat)

/-- Whose cycle an action begins, moves on or ends, if it does. -/
def Action.party? : Action → Option Party
  | .begin host _ | .abandon host => some (.host host)
  | .enter party | .tokenReturned party _ | .tokenTaken party | .readReturned party _
  | .callBroke party _ | .askSink party | .commit party | .writeBroke party _ _ => some party
  | .launch | .quit => some .watcher
  | _ => none

namespace State

variable {sink : Type}

/-! ### Steps of a cycle -/

/-- A task of the program begins a cycle. To write straight into the shared sink it has to hold
its lock. -/
def begin? (state : State sink) (host : Nat) (delivery : Delivery) : Option (State sink) :=
  if (state.cycles (.host host)).isSome then none
  else if delivery = .direct .shared && !state.sinkLock.isHeldBy (.guarding host) then none
  else some (state.beginCycle (.host host) delivery)

/-- A cycle whose turn it is asks for a token. -/
def enter? (state : State sink) (party : Party) : Option (State sink) := do
  let cycle ← state.activeCycle? party
  match cycle.stage with
  | .queued =>
    if state.turn.isHeldBy party then
      some ((state.moveCycle party cycle .authenticating).note (.asked party))
    else none
  | _ => none

/-- A cycle gets its token and hands it to the store, or ends with the error. -/
def tokenReturned? (state : State sink) (party : Party) (answer : Except LoadError AuthToken) :
    Option (State sink) := do
  let cycle ← state.activeCycle? party
  match cycle.stage, answer with
  | .authenticating, .ok auth =>
    some (((state.moveCycle party cycle (.handingOver auth)).note
      (.leased party auth.lease)).note (.handed party auth.token))
  | .authenticating, .error error => some (state.finish party (.error error))
  | _, _ => none

/-- The store takes the token over, and the cycle begins to read. -/
def tokenTaken? (state : State sink) (party : Party) : Option (State sink) := do
  let cycle ← state.activeCycle? party
  match cycle.stage with
  | .handingOver auth =>
    let taken := { state with storeToken := some auth.token }
    some (taken.moveCycle party cycle (.afterToken state.settings.secrets auth.lease))
  | _ => none

/-- A cycle gets a secret and goes on to the next, or ends with the error. -/
def readReturned? (state : State sink) (party : Party) (answer : Except LoadError Secret) :
    Option (State sink) := do
  let cycle ← state.activeCycle? party
  match cycle.stage, answer with
  | .reading gathering, .ok secret =>
    some ((state.note (.leased party secret.lease)).moveCycle party cycle
      (.afterRead gathering secret))
  | .reading _, .error error => some (state.finish party (.error error))
  | _, _ => none

/-- A call of a cycle breaks down. -/
def callBroke? (state : State sink) (party : Party) (reason : String) : Option (State sink) := do
  let cycle ← state.activeCycle? party
  match cycle.stage with
  | .authenticating | .handingOver _ | .reading _ => some (state.breakDown party reason)
  | _ => none

/-- A cycle that has everything asks for the shared sink, if that is where its values go. -/
def askSink? (state : State sink) (party : Party) : Option (State sink) := do
  let cycle ← state.activeCycle? party
  match cycle.stage with
  | .staged _ =>
    if state.hasToAsk party cycle.delivery then
      some { state with sinkLock := state.sinkLock.ask (.writing party) }
    else none
  | _ => none

/-- A cycle writes what it has staged, and is over. -/
def commit? [ConfigSink sink] (state : State sink) (party : Party) : Option (State sink) := do
  let cycle ← state.activeCycle? party
  let staged ← cycle.stage.staged?
  if state.mayWrite party cycle.delivery then
    some ((state.commit party cycle.delivery.target staged).finish party (.ok ()))
  else none

/-- The sink breaks down after so many of the values of a cycle. -/
def writeBroke? [ConfigSink sink] (state : State sink) (party : Party) (written : Nat)
    (reason : String) : Option (State sink) := do
  let cycle ← state.activeCycle? party
  let staged ← cycle.stage.staged?
  if state.mayWrite party cycle.delivery && decide (written < staged.entries.length) then
    some ((state.write cycle.delivery.target (staged.entries.take written)).breakDown party reason)
  else none

/-- A task of the program gives up its cycle, wherever it is. -/
def abandon? (state : State sink) (host : Nat) : Option (State sink) :=
  if (state.cycles (.host host)).isSome then
    some ((state.endCycle (.host host)).note (.abandoned (.host host)))
  else none

/-! ### Steps of the background task -/

/-- The background task where it may go on with its work. -/
def activeWatcher? (state : State sink) : Option Watcher :=
  if state.mayAct .watcher then state.watcher else none

/-- The background task sets its timer, whether it was asked to stop or not. -/
def arm? (state : State sink) : Option (State sink) := do
  let watcher ← state.watcher
  match watcher.phase with
  | .starting =>
    let alarm := Alarm.armed state.settings state.interval state.commits state.now
    some (state.setWatcher { watcher with phase := .waiting alarm })
  | _ => none

/-- The background task sets its timer anew after a commit. -/
def rearm? (state : State sink) : Option (State sink) := do
  let watcher ← state.watcher
  let interval ← state.interval
  match watcher.phase with
  | .waiting alarm =>
    if watcher.waitBranch? alarm state.commits state.now = some .interval then
      some (state.setWatcher
        { watcher with phase := Phase.rearmed interval state.commits state.now })
    else none
  | _ => none

/-- The timer goes off, and the background task turns to a cycle. -/
def due? (state : State sink) : Option (State sink) := do
  let watcher ← state.watcher
  match watcher.phase with
  | .waiting alarm =>
    if watcher.waitBranch? alarm state.commits state.now = some .timer then
      some ((state.setWatcher
        { watcher with phase := .refreshing 0, published := .refreshing }).note .turned)
    else none
  | _ => none

/-- The pause before a retry is over, and the background task turns to a cycle again. -/
def resume? (state : State sink) : Option (State sink) := do
  let watcher ← state.activeWatcher?
  match watcher.phase with
  | .pausing attempt wake =>
    if wake ≤ state.now then
      some ((state.setWatcher { watcher with phase := .refreshing (attempt + 1) }).note .turned)
    else none
  | _ => none

/-- The background task begins the cycle that it has turned to. -/
def launch? (state : State sink) : Option (State sink) := do
  let watcher ← state.activeWatcher?
  if state.isTurnedToCycle watcher then some (state.beginCycle .watcher .locking) else none

/-- The background task is asked to stop, or nobody is left who could ask. -/
def requestStop? (state : State sink) : Option (State sink) := do
  let watcher ← state.watcher
  some (state.setWatcher { watcher with stopRequested := true })

/-- The background task, asked to stop, gives up its cycle and ends. -/
def quit? (state : State sink) : Option (State sink) := do
  let watcher ← state.watcher
  if watcher.comesToStop state.commits state.now then
    let left := if (state.cycles .watcher).isSome then
        (state.endCycle .watcher).note (.abandoned .watcher)
      else state
    some (left.setWatcher { watcher with phase := .ended (.ok ()), published := .stopped })
  else none

/-! ### Steps of the program -/

/-- Locks the shared sink, or queues for it. -/
def lockSink? (state : State sink) (host : Nat) : Option (State sink) :=
  if SinkClaim.guarding host ∈ state.sinkLock.claims then none
  else some { state with sinkLock := state.sinkLock.ask (.guarding host) }

/-- Lets go of the shared sink, or leaves the queue for it. A cycle that writes straight into the
sink keeps it locked. -/
def unlockSink? (state : State sink) (host : Nat) : Option (State sink) :=
  let inUse := (state.cycles (.host host)).any fun cycle => cycle.delivery == .direct .shared
  if SinkClaim.guarding host ∈ state.sinkLock.claims ∧ !inUse then
    some { state with sinkLock := state.sinkLock.leave (.guarding host) }
  else none

/-- Begins to wait for the end of the background task. Only the first to do so learns its
outcome; to everyone else all is well at once. -/
def beginWait? (state : State sink) (host : Nat) : Option (State sink) := do
  let watcher ← state.watcher
  match watcher.handle with
  | .kept => some (state.setWatcher { watcher with handle := .taken host })
  | _ => some (state.note (.waited host (.ok ())))

/-- Learns how the background task ended. -/
def finishWait? (state : State sink) (host : Nat) : Option (State sink) := do
  let watcher ← state.watcher
  let outcome ← watcher.phase.outcome?
  if watcher.handle = .taken host then
    some ((state.setWatcher { watcher with handle := .gone }).note (.waited host outcome))
  else none

/-- Gives up waiting; nobody learns the outcome then. -/
def dropWait? (state : State sink) (host : Nat) : Option (State sink) := do
  let watcher ← state.watcher
  if watcher.handle = .taken host then some (state.setWatcher { watcher with handle := .gone })
  else none

/-- Time passes, but only while everyone waits, and never past a timer. -/
def advance? (state : State sink) (time : Nat) : Option (State sink) :=
  if state.now < time ∧ state.quiet ∧ state.wake?.all (time ≤ ·) then
    some { state with now := time }
  else none

/-! ### Runs -/

/-- The loader after an action, where the action can happen. -/
def step? [ConfigSink sink] (state : State sink) : Action → Option (State sink)
  | .begin host delivery => state.begin? host delivery
  | .enter party => state.enter? party
  | .tokenReturned party answer => state.tokenReturned? party answer
  | .tokenTaken party => state.tokenTaken? party
  | .readReturned party answer => state.readReturned? party answer
  | .callBroke party reason => state.callBroke? party reason
  | .askSink party => state.askSink? party
  | .commit party => state.commit? party
  | .writeBroke party written reason => state.writeBroke? party written reason
  | .abandon host => state.abandon? host
  | .arm => state.arm?
  | .rearm => state.rearm?
  | .due => state.due?
  | .resume => state.resume?
  | .launch => state.launch?
  | .requestStop => state.requestStop?
  | .quit => state.quit?
  | .lockSink host => state.lockSink? host
  | .unlockSink host => state.unlockSink? host
  | .beginWait host => state.beginWait? host
  | .finishWait host => state.finishWait? host
  | .dropWait host => state.dropWait? host
  | .advance time => state.advance? time

/-- The loader after some actions, where they can happen one after another. -/
def run? [ConfigSink sink] (state : State sink) : List Action → Option (State sink)
  | [] => some state
  | action :: rest => (state.step? action).bind fun next => next.run? rest

end State

end SecretRenewal.Loader
