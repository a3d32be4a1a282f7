/-
This file holds a loader that is being rehearsed against stand-ins, and the steps that its parties
take. A party's next step follows from the state of the loader and from what the stand-ins answer.
A step that passes a timer or a lock, or gets in line for one, takes credit, which is how one party
is kept from going on for ever. Every step is a step of the loader, so whatever holds of its runs
holds of a rehearsal.
-/
import SecretRenewal.Loader.Poll
import SecretRenewal.Rehearsal.Doubles
import SecretRenewal.Rehearsal.Wheel

namespace SecretRenewal

open Loader

/-- When a call is answered. -/
inductive Rehearsal.Call
  /-- At once. -/
  | immediate
  /-- At this time. -/
  | timed (due : Nat)
  /-- Never. -/
  | unanswered
  deriving DecidableEq

/-- A loader being rehearsed. -/
structure Rehearsal where
  /-- The loader. -/
  state : State Values
  /-- The stand-ins. -/
  doubles : Rehearsal.Doubles
  /-- The calls that are under way. -/
  calls : List (Party × Rehearsal.Call) := []
  /-- The timers that tasks wait for. -/
  wheel : Rehearsal.Wheel Party := {}
  /-- The tasks that can go on, in the order in which they will. -/
  ready : List Party
  /-- The task that is going on. -/
  running : Option Party := none
  /-- Whether that task was woken while it was going on. -/
  rewoken : Bool := false
  /-- How many more timers and locks whoever is going on may pass without giving way. -/
  credit : Nat
  /-- The tasks that had no credit left. They go on once the others have had their turns. -/
  yielded : List Party := []
  /-- Those of them that had no credit even to begin to wait, so that nothing else wakes them. -/
  unaware : List Party := []
  /-- How many turns tasks have had since the script gave way. -/
  turns : Nat := 0
  /-- The tasks started by the script that have not begun. -/
  unstarted : List Nat := []
  /-- How many tasks the script has started. -/
  spawned : Nat := 0
  /-- Whether the script has dropped the loader. -/
  dropped : Bool := false
  /-- How much of what the background task has told about itself the script has heard. -/
  heard : Nat := 0
  /-- How often a token was asked for. -/
  tokenCalls : Nat := 0
  /-- The largest number of reads under way at once. -/
  mostReads : Nat := 0
  /-- How many steps may still be taken before the rehearsal is cut short. -/
  budget : Nat

namespace Rehearsal

/-- The task that the script runs cycles in. -/
def script : Party := .host 0

/-- The task number `number` that the script has started, counted from zero. -/
def task (number : Nat) : Party := .host (number + 1)

/-- Everyone who may run a cycle. -/
def parties (rehearsal : Rehearsal) : List Party :=
  .watcher :: script :: (List.range rehearsal.spawned).map task

/-- Whether a party has something to do, or to wait for. -/
def isUnderWay (rehearsal : Rehearsal) : Party → Bool
  | .watcher => rehearsal.state.watcher.any fun watcher => watcher.phase.isRunning
  | .host number =>
    number ∈ rehearsal.unstarted || (rehearsal.state.cycles (.host number)).isSome

/-! ### Calls -/

/-- The call of a party that is under way. -/
def call? (rehearsal : Rehearsal) (party : Party) : Option Call := rehearsal.calls.lookup party

/-- When the call of a party is answered, if it has to wait for that. -/
def answerTime? (rehearsal : Rehearsal) (party : Party) : Option Nat :=
  match rehearsal.call? party with
  | some (.timed due) => some due
  | _ => none

/-- Whether the call of a party is answered. -/
def isAnswered (rehearsal : Rehearsal) (party : Party) : Bool :=
  match rehearsal.call? party with
  | some .immediate => true
  | some (.timed due) => decide (due ≤ rehearsal.state.now)
  | _ => false

/-- A call begins. It is answered after the delay, or never. -/
def startCall (rehearsal : Rehearsal) (party : Party) (delay : Option Nat) : Rehearsal :=
  let others := rehearsal.calls.filter (·.1 ≠ party)
  let call := match delay with
    | none => .unanswered
    | some 0 => .immediate
    | some millis => .timed (Clock.wakeTick rehearsal.state.now millis)
  { rehearsal with calls := (party, call) :: others }

/-- The call of a party is over. -/
def endCall (rehearsal : Rehearsal) (party : Party) : Rehearsal :=
  { rehearsal with calls := rehearsal.calls.filter (·.1 ≠ party) }

/-! ### The next step of a party -/

/-- What a call gives, as a step of the loader. -/
def answerAction {value : Type} (party : Party) (returned : Except LoadError value → Action) :
    Answer value → Action
  | .ok value => returned (.ok value)
  | .error (.error error) => returned (.error error)
  | .error (.breakdown reason) => .callBroke party reason

/-- The next step of a cycle, if it does not have to wait. -/
def cycleAction? (rehearsal : Rehearsal) (party : Party) (cycle : Cycle) : Option Action :=
  let answered (action : Action) := if rehearsal.isAnswered party then some action else none
  match cycle.stage with
  | .queued => if rehearsal.state.turn.isHeldBy party then some (.enter party) else none
  | .authenticating =>
    answered (answerAction party (.tokenReturned party) rehearsal.doubles.askToken)
  | .handingOver _ => some (.tokenTaken party)
  | .reading gathering =>
    answered (answerAction party (.readReturned party)
      (rehearsal.doubles.read gathering.current.path))
  | .staged _ =>
    if rehearsal.state.hasToAsk party cycle.delivery then some (.askSink party)
    else if rehearsal.state.mayWrite party cycle.delivery then some (.commit party)
    else none

/-- The next step of the work of the background task, if it does not have to wait. -/
def workAction? (rehearsal : Rehearsal) (watcher : Watcher) : Option Action :=
  match watcher.phase with
  | .pausing _ wake => if wake ≤ rehearsal.state.now then some .resume else none
  | _ =>
    if rehearsal.state.isTurnedToCycle watcher then some .launch
    else (rehearsal.state.cycles .watcher).bind (rehearsal.cycleAction? .watcher)

/-- The next step of a party, if it does not have to wait. -/
def nextAction? (rehearsal : Rehearsal) : Party → Option Action
  | .watcher => do
    let watcher ← rehearsal.state.watcher
    let (action, _) ← rehearsal.state.polled? (rehearsal.workAction? watcher).toList
    return action
  | .host number =>
    if number ∈ rehearsal.unstarted then some (.begin number .locking)
    else (rehearsal.state.cycles (.host number)).bind (rehearsal.cycleAction? (.host number))

/-- Whether the answer that a party goes on with was waited for. -/
def waitsForAnswer (rehearsal : Rehearsal) (party : Party) : Bool :=
  (rehearsal.answerTime? party).isSome

/-- Whether the cycle of a party has to lock the sink to write into it. -/
def locksSink (rehearsal : Rehearsal) (party : Party) : Bool :=
  (rehearsal.state.cycles party).any fun cycle => cycle.delivery == .locking

/-- Whether a step passes a timer or a lock, or gets in line for a lock. -/
def needsCredit (rehearsal : Rehearsal) : Action → Bool
  | .begin _ _ | .enter _ | .askSink _ | .rearm | .due | .resume | .launch => true
  | .tokenReturned party _ | .readReturned party _ | .callBroke party _ =>
    rehearsal.waitsForAnswer party
  | .commit party => rehearsal.locksSink party
  | _ => false

/-- How much credit a step uses up. Whoever only gets in line passes nothing yet. -/
def price (rehearsal : Rehearsal) : Action → Nat
  | .begin _ _ | .askSink _ | .launch => 0
  | action => if rehearsal.needsCredit action then 1 else 0

/-! ### Taking a step -/

/-- How far the cycle of a party has got. -/
def stage? (rehearsal : Rehearsal) (party : Party) : Option Stage :=
  (rehearsal.state.cycles party).map Cycle.stage

/-- The calls of a party after a step of its cycle: a read begins, or nothing does. -/
def followCycle (rehearsal : Rehearsal) (party : Party) : Rehearsal :=
  match rehearsal.stage? party with
  | some (.reading _) => rehearsal.startCall party (some rehearsal.doubles.readDelay)
  | _ => rehearsal.endCall party

/-- The background task has set its timer anew. That wakes the task itself where the timer was
running and is due at once. -/
def followRearm (rehearsal : Rehearsal) : Rehearsal :=
  match rehearsal.state.wake? with
  | none => rehearsal
  | some due =>
    let isDue := decide (due ≤ rehearsal.state.now)
    { rehearsal with
      wheel := rehearsal.wheel.set .watcher due
      rewoken := rehearsal.rewoken || rehearsal.wheel.holds .watcher && isDue }

/-- The calls, timers and stand-ins after a step. -/
def follow (before rehearsal : Rehearsal) : Action → Rehearsal
  | .begin number _ => { rehearsal with unstarted := rehearsal.unstarted.filter (· ≠ number) }
  | .enter party =>
    let asked := { rehearsal with tokenCalls := rehearsal.tokenCalls + 1 }
    let doubles := asked.doubles
    asked.startCall party
      (if asked.tokenCalls ≤ doubles.tokenLimit then some doubles.tokenDelay else none)
  | .tokenReturned party _ | .readReturned party _ | .callBroke party _ =>
    let used := match before.stage? party with
      | some .authenticating => { rehearsal with doubles := rehearsal.doubles.tokenAsked }
      | _ => rehearsal
    used.followCycle party
  | .tokenTaken party => rehearsal.followCycle party
  | .commit party => rehearsal.followCycle party
  | .abandon number => rehearsal.endCall (.host number)
  | .rearm => rehearsal.followRearm
  | .quit => rehearsal.endCall .watcher
  | _ => rehearsal

/-- When a party goes on by the clock alone. -/
def wakeTime? (rehearsal : Rehearsal) (party : Party) : Option Nat :=
  let answer := rehearsal.answerTime? party
  if party = .watcher then answer.or rehearsal.state.wake? else answer

/-- Takes the timers off the wheel that nobody waits for any more. -/
def clearTimers (rehearsal : Rehearsal) : Rehearsal :=
  { rehearsal with
    wheel := rehearsal.wheel.keep fun party => (rehearsal.wakeTime? party).isSome }

/-- Queues up everyone whom a step has let go on. A commit tells the background task first,
and a lock that is let go of wakes whoever holds it then. -/
def wake (rehearsal : Rehearsal) : Rehearsal :=
  let state := rehearsal.state
  let watcher := if state.watcherReady then [Party.watcher] else []
  let writer := match state.sinkLock.holder with
    | some (.writing party) => [party]
    | _ => []
  let candidates := watcher ++ (writer ++ state.turn.holder.toList).filter state.cycleReady
  { rehearsal with
    ready := candidates.foldl (fun ready party =>
      if party ∈ ready ++ rehearsal.unaware ∨ rehearsal.running = some party ∨ party = script then
        ready
      else ready ++ [party]) rehearsal.ready }

/-- How many reads are under way. -/
def reads (rehearsal : Rehearsal) : Nat :=
  rehearsal.parties.countP fun party => (rehearsal.stage? party).any Stage.isReading

/-- Takes a step, where it can be taken. -/
def perform (rehearsal : Rehearsal) (action : Action) : Rehearsal :=
  match rehearsal.state.step? action with
  | none => rehearsal
  | some state =>
    let followed := follow rehearsal { rehearsal with state } action
    { followed with mostReads := max followed.mostReads followed.reads }.clearTimers.wake

/-- The next step of a party, if it can be taken with the credit that is left. -/
def goOn? (rehearsal : Rehearsal) (party : Party) : Option Rehearsal := do
  let action ← rehearsal.nextAction? party
  if rehearsal.credit = 0 && rehearsal.needsCredit action then none
  else
    let credit := rehearsal.credit - rehearsal.price action
    some ({ rehearsal with credit }.perform action)

end Rehearsal

end SecretRenewal
