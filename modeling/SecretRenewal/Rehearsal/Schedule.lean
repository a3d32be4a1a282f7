/-
This file says whose turn it is in a rehearsal. Everyone shares one thread. A task goes on until it
has to wait, or until it has passed so many timers and locks that the others have to be let on
first; those that can go on again queue up in the order in which they were woken. The script is a
task of its own. It goes first whenever it can go on, and is looked at when no task can go on any
more or so many of them have had a turn. Only when everyone waits does the clock move, straight to
the next time at which someone goes on.
-/
import SecretRenewal.Rehearsal.Steps

namespace SecretRenewal.Rehearsal

open Loader

/-- How many timers and locks may be passed in one turn. -/
def fullCredit : Nat := 128

/-- How many turns tasks have before the script is looked at. -/
def turnLimit : Nat := 61

/-! ### Turns of tasks -/

/-- Whether a task that the script has started still runs. -/
def hasTasks (rehearsal : Rehearsal) : Bool :=
  (List.range rehearsal.spawned).any fun number => rehearsal.isUnderWay (task number)

/-- Asks the background task to stop once nobody has the loader any more. -/
def letGo (rehearsal : Rehearsal) : Rehearsal :=
  let asked := rehearsal.state.watcher.any Watcher.stopRequested
  if rehearsal.dropped && !asked && !rehearsal.hasTasks then rehearsal.perform .requestStop
  else rehearsal

/-- Whether a task that stops has to yield: it lacks the credit to wait. A call that is never
answered takes no credit. -/
def mustYield (rehearsal : Rehearsal) (party : Party) : Bool :=
  rehearsal.credit == 0 && rehearsal.isUnderWay party &&
    rehearsal.call? party != some .unanswered

/-- The task that is going on yields. -/
def yieldTurn (rehearsal : Rehearsal) (party : Party) : Rehearsal :=
  { rehearsal with
    yielded := rehearsal.yielded.filter (· ≠ party) ++ [party]
    unaware := party :: rehearsal.unaware }

/-- The task that is going on begins to wait, and sets its timer if it waits for one. -/
def beginWaiting (rehearsal : Rehearsal) (party : Party) : Rehearsal :=
  { rehearsal with
    unaware := rehearsal.unaware.filter (· ≠ party)
    wheel := match rehearsal.wakeTime? party with
      | some due => rehearsal.wheel.set party due
      | none => rehearsal.wheel }

/-- The turn of a task is over. If it was woken meanwhile it queues up again. -/
def endTurn (rehearsal : Rehearsal) (party : Party) : Rehearsal :=
  let stopped := if rehearsal.mustYield party then rehearsal.yieldTurn party
    else rehearsal.beginWaiting party
  let again := if rehearsal.rewoken && rehearsal.isUnderWay party then [party] else []
  { stopped with running := none, rewoken := false, ready := stopped.ready ++ again }

/-- One step of whichever task is going on, or the start of the next turn. Nothing when no task can
go on, or when the script is to be looked at first. -/
def turn? (rehearsal : Rehearsal) : Option Rehearsal :=
  match rehearsal.running, rehearsal.ready with
  | some party, _ =>
    match rehearsal.goOn? party with
    | some next => some next.letGo
    | none => some (rehearsal.endTurn party)
  | none, party :: ready =>
    if rehearsal.turns < turnLimit then
      let turns := rehearsal.turns + 1
      some { rehearsal with running := some party, ready, turns, credit := fullCredit }
    else none
  | none, [] => none

/-- Lets tasks go on, so many steps at most, until the script is to be looked at. -/
def takeTurns : Nat → Rehearsal → Rehearsal
  | 0, rehearsal => rehearsal
  | budget + 1, rehearsal =>
    match rehearsal.turn? with
    | some next => takeTurns budget next
    | none => rehearsal

/-- The script gives way to the tasks, and gets new credit for when it goes on. The tasks that have
yielded queue up again at the end. -/
def giveWay (rehearsal : Rehearsal) : Rehearsal :=
  let after := takeTurns rehearsal.budget { rehearsal with turns := 0 }
  let again := after.yielded.filter fun party => party ∉ after.ready && after.isUnderWay party
  { after with
    ready := after.ready ++ again
    yielded := []
    unaware := []
    credit := fullCredit }

/-! ### Turns of the script -/

/-- The script goes on with its own cycle until that waits or is over, or its credit is used up.
Tasks do not go on meanwhile. -/
def runScript : Nat → Rehearsal → Rehearsal
  | 0, rehearsal => rehearsal
  | budget + 1, rehearsal =>
    match rehearsal.goOn? script with
    | some next => runScript budget next
    | none => rehearsal

/-- The script uses up some credit. -/
def spend (rehearsal : Rehearsal) : Rehearsal := { rehearsal with credit := rehearsal.credit - 1 }

/-- The script gives way if it has no credit left. -/
def breathe (rehearsal : Rehearsal) : Rehearsal :=
  if rehearsal.credit = 0 then rehearsal.giveWay else rehearsal

/-! ### The clock -/

/-- The next time at which someone goes on by the clock alone, the script also at some times of
its own. -/
def nextTime? (rehearsal : Rehearsal) (ofScript : List Nat) : Option Nat :=
  (ofScript ++ rehearsal.parties.filterMap rehearsal.wakeTime?).min?

/-- The clock moves, and everyone whose timer goes off queues up. -/
def moveTo (rehearsal : Rehearsal) (time : Nat) : Rehearsal :=
  let (due, wheel) := rehearsal.wheel.turnTo time
  let moved := { rehearsal with wheel, credit := fullCredit }.perform (.advance time)
  { moved with ready := due ++ moved.ready.filter (· ∉ due) }

end SecretRenewal.Rehearsal
