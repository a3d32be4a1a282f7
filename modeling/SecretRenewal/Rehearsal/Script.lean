/-
This file holds the script of a rehearsal and what comes of it. A script tells the stand-ins what
to answer, runs cycles and gives up on them when they take too long, lets time pass, and watches
the background task. After each instruction there is a report: the time, what came of the
instruction, all that has happened since the last report, and what the loader says of itself.
-/
import SecretRenewal.Rehearsal.Schedule

namespace SecretRenewal.Rehearsal

open Loader

/-- An instruction of a script. -/
inductive Instruction
  /-- Tell the stand-ins something. -/
  | change (change : Change)
  /-- Let time pass. -/
  | sleep (millis : Nat)
  /-- Run a cycle, and give it up when it takes too long. -/
  | refresh (delivery : Delivery) (timeout : Nat)
  /-- Start a task that runs a cycle into the shared sink, and let tasks go on once. -/
  | spawn
  /-- Ask the background task to stop. -/
  | stop
  /-- Wait for the end of the background task, but not too long. -/
  | wait (timeout : Nat)
  /-- Wait until the background task tells this about itself, but not too long. -/
  | waitState (wanted : WatcherState) (timeout : Nat)
  /-- Drop the loader. -/
  | drop
  /-- Lock the shared sink. -/
  | lockSink
  /-- Let go of the shared sink. -/
  | unlockSink
  /-- Look at the sinks. -/
  | values
  /-- Look at the loader. -/
  | describe

/-- What the sinks hold. -/
structure Contents where
  /-- The sink of the script. -/
  own : Values
  /-- The shared sink. -/
  shared : Values

/-- What comes of an instruction. -/
inductive Outcome
  /-- It was carried out. -/
  | done
  /-- It failed. -/
  | failed (error : LoadError)
  /-- A call in it broke down. -/
  | brokeDown (reason : String)
  /-- It took too long. -/
  | timedOut
  /-- There is no background task. -/
  | noWatcher
  /-- The loader was dropped. -/
  | noLoader
  /-- A task was started. -/
  | started (number : Nat)
  /-- The background task told what was waited for. -/
  | reached
  /-- The background task has ended without telling it. -/
  | closed
  /-- What the sinks hold. -/
  | contents (contents : Contents)
  /-- The loader in words. -/
  | described (text : String)

/-- The report on an instruction. -/
structure Report where
  /-- When it was over. -/
  time : Nat
  /-- What came of it. -/
  outcome : Outcome
  /-- What has happened since the last report, the oldest first. -/
  events : List (Nat × Event)
  /-- The interval that the loader goes by. -/
  interval : Option Duration
  /-- Whether a cycle has committed. -/
  refreshed : Bool
  /-- What the background task tells about itself. -/
  watcher : Option WatcherState

/-- What the script waits for. -/
inductive Waiting
  /-- A time. -/
  | clock (time : Nat)
  /-- The end of its own cycle. -/
  | cycle
  /-- The end of the background task. -/
  | outcome
  /-- Something that the background task tells about itself. -/
  | telling (wanted : WatcherState)
  /-- The lock of the shared sink. -/
  | sink

/-- The result of a cycle or a wait as the outcome of an instruction. -/
def Outcome.ofResult : Except LoadError Unit → Outcome
  | .ok () => .done
  | .error error => .failed error

/-- What came of the cycle or the wait of the script that ended last. -/
def ownOutcome? : List (Nat × Event) → Option Outcome
  | [] => none
  | (_, .finished (.host 0) result) :: _ => some (.ofResult result)
  | (_, .brokeDown (.host 0) reason) :: _ => some (.brokeDown reason)
  | (_, .waited 0 outcome) :: _ => some (.ofResult outcome)
  | _ :: rest => ownOutcome? rest

/-- Whether the script keeps the shared sink to itself. -/
def keepsSink (rehearsal : Rehearsal) : Bool := rehearsal.state.sinkLock.isHeldBy (.guarding 0)

/-- Whether the script is the one to learn how the background task ends. -/
def expectsOutcome (rehearsal : Rehearsal) : Bool :=
  rehearsal.state.watcher.any (·.handle == .taken 0)

/-- Looks how the background task has ended. Only who asks first learns it. -/
def pollOutcome (rehearsal : Rehearsal) : Rehearsal × Option Outcome :=
  let asked := if rehearsal.expectsOutcome then rehearsal
    else (rehearsal.perform (.beginWait 0)).spend
  if !asked.expectsOutcome then (asked, some .done)
  else if asked.credit = 0 then (asked, none)
  else match asked.state.finishWait? 0 with
    | some state => ({ asked with state }.spend, ownOutcome? state.history)
    | none => (asked, none)

/-- How often the background task has told something about itself. -/
def told (rehearsal : Rehearsal) : Nat :=
  rehearsal.state.history.countP fun
    | (_, .published _) => true
    | _ => false

/-- Hears what the background task has told about itself. -/
def hear (rehearsal : Rehearsal) : Rehearsal := { rehearsal with heard := rehearsal.told }

/-- Looks at what the background task tells about itself. To hear something new uses up credit, and
so does learning that there will be nothing more. -/
def pollTelling (rehearsal : Rehearsal) (wanted : WatcherState) : Rehearsal × Option Outcome :=
  let heard := if rehearsal.told = rehearsal.heard then rehearsal else rehearsal.hear.spend
  match rehearsal.state.watcher with
  | none => (heard, none)
  | some watcher =>
    if watcher.published = wanted then (heard, some .reached)
    else if heard.credit = 0 || watcher.phase.isRunning then (heard, none)
    else (heard.spend, some .closed)

/-- Looks whether what the script waits for is there. -/
def poll (rehearsal : Rehearsal) : Waiting → Rehearsal × Option Outcome
  | .clock time =>
    if time ≤ rehearsal.state.now then (rehearsal.spend, some .done) else (rehearsal, none)
  | .cycle =>
    let ran := runScript rehearsal.budget rehearsal
    (ran, if (ran.state.cycles script).isNone then ownOutcome? ran.state.history else none)
  | .outcome => rehearsal.pollOutcome
  | .telling wanted => rehearsal.pollTelling wanted
  | .sink =>
    let asked := rehearsal.perform (.lockSink 0)
    if asked.keepsSink then (asked.spend, some .done) else (asked, none)

/-- Gives up on what the script waits for. -/
def giveUp (rehearsal : Rehearsal) : Waiting → Rehearsal
  | .cycle => rehearsal.spend.perform (.abandon 0)
  | .outcome => rehearsal.spend.perform (.dropWait 0)
  | _ => rehearsal.spend

/-- The times at which a waiting script goes on by the clock alone. -/
def Waiting.times (deadline : Option Nat) : Waiting → List Nat
  | .clock time => time :: deadline.toList
  | _ => deadline.toList

/-- Waits, up to a deadline if there is one, taking so many rounds at most. What the script waits
for counts even when it comes at the very deadline, if the script sees it without giving way. A
script that has no credit gives way before it looks at the deadline. -/
def await : Nat → Rehearsal → Waiting → Option Nat → Rehearsal × Outcome
  | 0, rehearsal, _, _ => (rehearsal, .timedOut)
  | rounds + 1, rehearsal, waiting, deadline =>
    match rehearsal.poll waiting with
    | (polled, some outcome) => (polled, outcome)
    | (polled, none) =>
      if rehearsal.credit != 0 && deadline.any (· ≤ polled.state.now) then
        (polled.giveUp waiting, .timedOut)
      else if polled.credit == 0 || !polled.ready.isEmpty then
        await rounds polled.giveWay waiting deadline
      else match polled.nextTime? (waiting.times deadline) with
        | some time => await rounds (polled.moveTo time) waiting deadline
        | none => (polled, .timedOut)

/-- Waits as long as the budget allows, for so many milliseconds at most if a limit is given. -/
def waitFor (rehearsal : Rehearsal) (waiting : Waiting) (timeout : Option Nat) :
    Rehearsal × Outcome :=
  await rehearsal.budget rehearsal waiting (timeout.map (rehearsal.state.now + ·))

/-- Carries an instruction out that needs the loader, unless it was dropped. -/
def withLoader (rehearsal : Rehearsal) (carriedOut : Unit → Rehearsal × Outcome) :
    Rehearsal × Outcome :=
  if rehearsal.dropped then (rehearsal, .noLoader) else carriedOut ()

/-- Carries an instruction out that needs the background task, if there is one. -/
def withWatcher (rehearsal : Rehearsal) (carriedOut : Unit → Rehearsal × Outcome) :
    Rehearsal × Outcome :=
  if rehearsal.state.watcher.isNone then (rehearsal, .noWatcher) else carriedOut ()

/-- Locks the shared sink, unless the script keeps it anyway. -/
def takeSink (rehearsal : Rehearsal) : Rehearsal :=
  if rehearsal.keepsSink then rehearsal else (rehearsal.breathe.waitFor .sink none).1

/-- Looks at the sinks. The shared one has to be locked for that. -/
def look (rehearsal : Rehearsal) : Rehearsal × Contents :=
  let locked := rehearsal.takeSink
  let contents := ⟨locked.state.sinks (.own 0), locked.state.sinks .shared⟩
  (if rehearsal.keepsSink then locked else locked.perform (.unlockSink 0), contents)

/-- Carries an instruction out. -/
def carryOut (rehearsal : Rehearsal) : Instruction → Rehearsal × Outcome
  | .change change => ({ rehearsal with doubles := rehearsal.doubles.tell change }, .done)
  | .sleep millis =>
    rehearsal.breathe.waitFor (.clock (Clock.wakeTick rehearsal.state.now millis)) none
  | .refresh delivery timeout => rehearsal.withLoader fun () =>
    (rehearsal.breathe.perform (.begin 0 delivery)).waitFor .cycle (some timeout)
  | .spawn => rehearsal.withLoader fun () =>
    let number := rehearsal.spawned
    let started := { rehearsal with
      spawned := number + 1
      unstarted := rehearsal.unstarted ++ [number + 1]
      ready := rehearsal.ready ++ [task number] }
    (started.giveWay, .started number)
  | .stop => rehearsal.withLoader fun () => rehearsal.withWatcher fun () =>
    (rehearsal.perform .requestStop, .done)
  | .wait timeout => rehearsal.withLoader fun () => rehearsal.withWatcher fun () =>
    rehearsal.breathe.waitFor .outcome (some timeout)
  | .waitState wanted timeout => rehearsal.withWatcher fun () =>
    rehearsal.hear.waitFor (.telling wanted) (some timeout)
  | .drop => rehearsal.withLoader fun () => ({ rehearsal with dropped := true }.letGo, .done)
  | .lockSink => (rehearsal.takeSink, .done)
  | .unlockSink => (rehearsal.perform (.unlockSink 0), .done)
  | .values =>
    let (looked, contents) := rehearsal.look
    (looked, .contents contents)
  | .describe => rehearsal.withLoader fun () =>
    (rehearsal, .described (rehearsal.state.settings.shown rehearsal.state.interval))

/-- The report on an instruction, given the rehearsal before it. -/
def report (before after : Rehearsal) (outcome : Outcome) : Report where
  time := after.state.now
  outcome := outcome
  events := (after.state.history.take
    (after.state.history.length - before.state.history.length)).reverse
  interval := if after.dropped then none else after.state.interval
  refreshed := !after.dropped && after.state.lastRefresh.isSome
  watcher := after.state.watcher.map Watcher.published

/-- Plays a script and reports on each instruction. -/
def play (rehearsal : Rehearsal) : List Instruction → Rehearsal × List Report
  | [] => (rehearsal, [])
  | instruction :: rest =>
    let (after, outcome) := rehearsal.carryOut instruction
    let (last, reports) := after.play rest
    (last, report rehearsal after outcome :: reports)

/-- What there is to say at the end of a script. -/
structure Summary where
  /-- What the sinks hold. -/
  contents : Contents
  /-- How often a token was asked for. -/
  tokenCalls : Nat
  /-- The largest number of reads under way at once. -/
  mostReads : Nat

/-- Ends a script. It lets go of the shared sink, looks at the sinks, drops the loader and lets
tasks go on once. -/
def conclude (rehearsal : Rehearsal) : Summary :=
  let (looked, contents) := (rehearsal.perform (.unlockSink 0)).look
  let left := { looked with dropped := true }.letGo.giveWay
  { contents, tokenCalls := left.tokenCalls, mostReads := left.mostReads }

/-- How many steps a script can lead to at most. Every cycle asks for a token once, and those
that are never answered are given up by the script, if at all. -/
def stepBound (settings : LoaderSettings) (doubles : Doubles) (instructions : Nat) : Nat :=
  8 * ((doubles.tokenLimit + 2 * instructions + 4) * (settings.secrets.length + 16))

/-- A loader before the first instruction of a script, with sinks that hold nothing. -/
def ofSettings (settings : LoaderSettings) (doubles : Doubles) (instructions : Nat) :
    Rehearsal where
  state := State.start settings fun _ => Values.empty
  doubles := doubles
  ready := if settings.watched then [.watcher] else []
  credit := fullCredit
  budget := stepBound settings doubles instructions

end SecretRenewal.Rehearsal
