/-
This file says once what each action does to a loader, so that no proof about runs has to look
into the step function again. The operations that a step is put together from change some fields
of the loader and note some events; each of them is written out as such a change. A move is a
step with everything that had to be so for it to happen. What holds at the start of a run and is
kept by every move holds wherever the run leads.
-/
import SecretRenewal.Proofs.Loader.Branches
import Mathlib.Logic.Function.Basic

namespace SecretRenewal.Loader

/-- Whether a cycle waits for a call to come back. -/
def Stage.isCalling : Stage → Bool
  | .authenticating | .handingOver _ | .reading _ => true
  | _ => false

theorem Stage.staged?_eq_some {stage : Stage} {batch : Staged} :
    stage.staged? = some batch ↔ stage = .staged batch := by
  cases stage <;> simp [Stage.staged?]

/-! ### What a history tells -/

/-- What a view picks out of a history, the oldest first. -/
def extract {fact : Type} (view : Nat × Event → Option fact) (history : List (Nat × Event)) :
    List fact :=
  (history.filterMap view).reverse

section

variable {fact : Type} {view : Nat × Event → Option fact}

/-- A history is written with the newest in front, and is told with the oldest first. -/
theorem extract_append (later earlier : List (Nat × Event)) :
    extract view (later ++ earlier) = extract view earlier ++ extract view later := by
  unfold extract
  rw [List.filterMap_append, List.reverse_append]

theorem extract_cons (entry : Nat × Event) (earlier : List (Nat × Event)) :
    extract view (entry :: earlier) = extract view earlier ++ (view entry).toList := by
  rw [← List.singleton_append, extract_append]
  cases described : view entry <;> simp [extract, described]

/-- A view tells nothing of a history none of which it is about. -/
theorem extract_eq_nil {history : List (Nat × Event)}
    (silent : ∀ entry ∈ history, view entry = none) : extract view history = [] := by
  unfold extract
  rw [List.filterMap_eq_nil_iff.mpr silent, List.reverse_nil]

end

namespace State

variable {sink : Type}

/-! ### Operations as changes of fields -/

/-- What the background task newly tells about itself when it is this from now on. -/
def tellings (state : State sink) (after : Option Watcher) : List (Nat × Event) :=
  if state.watcher.map Watcher.published = after.map Watcher.published then []
  else after.toList.map fun watcher => (state.now, .published watcher.published)

/-- What a cycle calls as soon as it has got to a stage. -/
def openings (state : State sink) (party : Party) : Stage → List (Nat × Event)
  | .reading gathering => [(state.now, .read party gathering.current.path state.storeToken)]
  | _ => []

/-- The background task after a cycle of a party has ended with a result. -/
def watcherAfter (state : State sink) (party : Party) (result : Except LoadError Unit) :
    Option Watcher :=
  match party, state.watcher with
  | .watcher, some watcher =>
    match watcher.phase with
    | .refreshing attempt =>
      some (watcher.afterCycle state.settings state.now attempt result)
    | _ => some watcher
  | _, watcher => watcher

/-- The background task after a cycle of a party has broken down. -/
def watcherBroken (state : State sink) (reason : String) : Party → Option Watcher
  | .watcher => state.watcher.map fun watcher => { watcher with phase := .brokeDown reason }
  | .host _ => state.watcher

theorem tellings_of_same {state : State sink} {after : Option Watcher}
    (same : state.watcher.map Watcher.published = after.map Watcher.published) :
    state.tellings after = [] :=
  if_pos same

/-- Whoever tells what he told before tells nothing new. -/
theorem tellings_of_published {state : State sink} {before after : Watcher}
    (present : state.watcher = some before) (same : after.published = before.published) :
    state.tellings (some after) = [] := by
  refine tellings_of_same ?_
  rw [present, Option.map_some, Option.map_some, same]

/-- What is newly told is told once. -/
theorem tellings_of_changed {state : State sink} {before after : Watcher}
    (present : state.watcher = some before) (changed : before.published ≠ after.published) :
    state.tellings (some after) = [(state.now, .published after.published)] := by
  unfold tellings
  rw [present, Option.map_some, Option.map_some, if_neg]
  · rfl
  · exact fun same => changed (Option.some.inj same)

/-- Only the cycle of the one party changes. -/
theorem setCycle_eq (state : State sink) (party : Party) (cycle : Option Cycle) :
    state.setCycle party cycle =
      { state with cycles := Function.update state.cycles party cycle } := by
  unfold setCycle
  congr 1
  funext other
  rw [Function.update_apply]

/-- The background task is replaced, and what it newly tells is noted. -/
theorem setWatcher_eq (state : State sink) (watcher : Watcher) :
    state.setWatcher watcher =
      { state with
        watcher := some watcher
        history := state.tellings (some watcher) ++ state.history } := by
  unfold setWatcher tellings
  simp only [Option.map_some]
  split
  · rfl
  · rfl

/-- A cycle begins by asking for its turn, and calls nothing yet. -/
theorem beginCycle_eq (state : State sink) (party : Party) (delivery : Delivery) :
    state.beginCycle party delivery =
      { state with
        cycles := Function.update state.cycles party (some { delivery })
        turn := state.turn.ask party } := by
  unfold beginCycle
  rw [setCycle_eq]

/-- A cycle gets to a stage, and the call that this stage begins with is noted. -/
theorem moveCycle_eq (state : State sink) (party : Party) (cycle : Cycle) (stage : Stage) :
    state.moveCycle party cycle stage =
      { state with
        cycles := Function.update state.cycles party (some { cycle with stage })
        history := state.openings party stage ++ state.history } := by
  unfold moveCycle openings
  rw [setCycle_eq]
  cases stage <;> rfl

/-- However a cycle ends, it lets go of its turn and of the sink. -/
theorem endCycle_eq (state : State sink) (party : Party) :
    state.endCycle party =
      { state with
        cycles := Function.update state.cycles party none
        sinkLock := state.sinkLock.leave (.writing party)
        turn := state.turn.leave party } := by
  unfold endCycle
  rw [setCycle_eq]

/-- A cycle comes to its end: it lets go of everything, its result is noted, and if it was one of
the background task the task goes on after it. -/
theorem finish_eq (state : State sink) (party : Party) (result : Except LoadError Unit) :
    state.finish party result =
      { state with
        cycles := Function.update state.cycles party none
        sinkLock := state.sinkLock.leave (.writing party)
        turn := state.turn.leave party
        watcher := state.watcherAfter party result
        history := state.tellings (state.watcherAfter party result) ++
          (state.now, .finished party result) :: state.history } := by
  have unchanged : state.tellings state.watcher = [] := tellings_of_same rfl
  obtain ⟨settings, now, turn, sinkLock, sinks, interval, lastRefresh, commits, storeToken,
    cycles, watcher, history⟩ := state
  simp only [finish, endCycle_eq, setWatcher_eq, note, watcherAfter]
  cases party with
  | host number => rw [unchanged]; rfl
  | watcher =>
    cases watcher with
    | none => rw [unchanged]; rfl
    | some watcher =>
      obtain ⟨phase, published, stopRequested, handle⟩ := watcher
      cases phase with
      | refreshing attempt => rfl
      | _ => rw [unchanged]; rfl

/-- A cycle breaks down: it lets go of everything, and so does the background task if the cycle was
its own, though it tells nobody. -/
theorem breakDown_eq (state : State sink) (party : Party) (reason : String) :
    state.breakDown party reason =
      { state with
        cycles := Function.update state.cycles party none
        sinkLock := state.sinkLock.leave (.writing party)
        turn := state.turn.leave party
        watcher := state.watcherBroken reason party
        history := (state.now, .brokeDown party reason) :: state.history } := by
  obtain ⟨settings, now, turn, sinkLock, sinks, interval, lastRefresh, commits, storeToken,
    cycles, watcher, history⟩ := state
  simp only [breakDown, endCycle_eq, setWatcher_eq, note, watcherBroken]
  cases party with
  | host number => rfl
  | watcher =>
    cases watcher with
    | none => rfl
    | some watcher => simp only [tellings, Option.map_some, if_pos, List.nil_append]

section

variable (state : State sink) (party : Party) (result : Except LoadError Unit) (reason : String)
  (watcher : Watcher)

theorem now_setWatcher : (state.setWatcher watcher).now = state.now := by rw [setWatcher_eq]

theorem watcher_setWatcher : (state.setWatcher watcher).watcher = some watcher := by
  rw [setWatcher_eq]

theorem cycles_setWatcher : (state.setWatcher watcher).cycles = state.cycles := by
  rw [setWatcher_eq]

theorem cycles_endCycle_self : (state.endCycle party).cycles party = none := by
  rw [endCycle_eq]
  exact Function.update_self ..

theorem now_finish : (state.finish party result).now = state.now := by rw [finish_eq]

theorem watcher_finish :
    (state.finish party result).watcher = state.watcherAfter party result := by
  rw [finish_eq]

theorem cycles_finish_self : (state.finish party result).cycles party = none := by
  rw [finish_eq]
  exact Function.update_self ..

theorem now_breakDown : (state.breakDown party reason).now = state.now := by rw [breakDown_eq]

theorem watcher_breakDown :
    (state.breakDown party reason).watcher = state.watcherBroken reason party := by
  rw [breakDown_eq]

theorem cycles_breakDown_self : (state.breakDown party reason).cycles party = none := by
  rw [breakDown_eq]
  exact Function.update_self ..

end

/-! ### What is noted of an operation -/

section

variable {fact : Type} {view : Nat × Event → Option fact}

/-- A view that does not care what the background task tells about itself. -/
theorem extract_tellings (silent : ∀ time told, view (time, .published told) = none)
    (state : State sink) (after : Option Watcher) : extract view (state.tellings after) = [] := by
  refine extract_eq_nil fun entry member => ?_
  unfold tellings at member
  split at member
  · cases member
  · obtain ⟨told, -, rfl⟩ := List.mem_map.mp member
    exact silent _ _

/-- For a view that does not care for it, nothing happens when the background task changes. -/
theorem extract_setWatcher (silent : ∀ time told, view (time, .published told) = none)
    (state : State sink) (watcher : Watcher) :
    extract view (state.setWatcher watcher).history = extract view state.history := by
  rw [setWatcher_eq]
  show extract view (_ ++ state.history) = _
  rw [extract_append, extract_tellings silent, List.append_nil]

/-- All that a cycle does when it gets to a stage is the call that the stage begins with. -/
theorem extract_moveCycle (state : State sink) (party : Party) (cycle : Cycle) (stage : Stage) :
    extract view (state.moveCycle party cycle stage).history =
      extract view state.history ++ extract view (state.openings party stage) := by
  rw [moveCycle_eq]
  exact extract_append ..

/-- A view that does not care for single entries sees nothing of a write. -/
theorem extract_write [ConfigSink sink]
    (silent : ∀ time target key value, view (time, .wrote target key value) = none)
    (state : State sink) (target : Target) (entries : List (String × Json)) :
    extract view (state.write target entries).history = extract view state.history := by
  have nothing : extract view (entries.reverse.map fun entry =>
      (state.now, Event.wrote target entry.1 entry.2)) = [] := by
    refine extract_eq_nil fun entry member => ?_
    obtain ⟨written, -, rfl⟩ := List.mem_map.mp member
    exact silent _ _ _ _
  show extract view (_ ++ state.history) = _
  rw [extract_append, nothing, List.append_nil]

/-- A cycle ends with one note, besides what the background task tells. -/
theorem extract_finish (silent : ∀ time told, view (time, .published told) = none)
    (state : State sink) (party : Party) (result : Except LoadError Unit) :
    extract view (state.finish party result).history =
      extract view state.history ++ (view (state.now, .finished party result)).toList := by
  rw [finish_eq]
  show extract view (_ ++ _ :: state.history) = _
  rw [extract_append, extract_tellings silent, List.append_nil, extract_cons]

theorem extract_breakDown (state : State sink) (party : Party) (reason : String) :
    extract view (state.breakDown party reason).history =
      extract view state.history ++ (view (state.now, .brokeDown party reason)).toList := by
  rw [breakDown_eq]
  exact extract_cons ..

end

end State

/-! ### Moves -/

section

variable {sink : Type} [ConfigSink sink]

/-- A step of a loader, with everything that had to be so for it to happen. -/
inductive Move (state : State sink) : Action → State sink → Prop
  | begin {host : Nat} {delivery : Delivery} (idle : state.cycles (.host host) = none)
      (guarded : delivery = .direct .shared → state.sinkLock.holder = some (.guarding host)) :
      Move state (.begin host delivery) (state.beginCycle (.host host) delivery)
  | enter {party : Party} {cycle : Cycle} (active : state.activeCycle? party = some cycle)
      (stage : cycle.stage = .queued) (turn : state.turn.holder = some party) :
      Move state (.enter party)
        ((state.moveCycle party cycle .authenticating).note (.asked party))
  | tokenCame {party : Party} {cycle : Cycle} {auth : AuthToken}
      (active : state.activeCycle? party = some cycle) (stage : cycle.stage = .authenticating) :
      Move state (.tokenReturned party (.ok auth))
        (((state.moveCycle party cycle (.handingOver auth)).note
          (.leased party auth.lease)).note (.handed party auth.token))
  | tokenFailed {party : Party} {cycle : Cycle} {error : LoadError}
      (active : state.activeCycle? party = some cycle) (stage : cycle.stage = .authenticating) :
      Move state (.tokenReturned party (.error error)) (state.finish party (.error error))
  | tokenTaken {party : Party} {cycle : Cycle} {auth : AuthToken}
      (active : state.activeCycle? party = some cycle) (stage : cycle.stage = .handingOver auth) :
      Move state (.tokenTaken party)
        ({ state with storeToken := some auth.token }.moveCycle party cycle
          (.afterToken state.settings.secrets auth.lease))
  | secretCame {party : Party} {cycle : Cycle} {gathering : Gathering} {secret : Secret}
      (active : state.activeCycle? party = some cycle) (stage : cycle.stage = .reading gathering) :
      Move state (.readReturned party (.ok secret))
        ((state.note (.leased party secret.lease)).moveCycle party cycle
          (.afterRead gathering secret))
  | secretFailed {party : Party} {cycle : Cycle} {gathering : Gathering} {error : LoadError}
      (active : state.activeCycle? party = some cycle) (stage : cycle.stage = .reading gathering) :
      Move state (.readReturned party (.error error)) (state.finish party (.error error))
  | callBroke {party : Party} {cycle : Cycle} {reason : String}
      (active : state.activeCycle? party = some cycle) (calling : cycle.stage.isCalling = true) :
      Move state (.callBroke party reason) (state.breakDown party reason)
  | askSink {party : Party} {cycle : Cycle} {batch : Staged}
      (active : state.activeCycle? party = some cycle) (stage : cycle.stage = .staged batch)
      (toAsk : state.hasToAsk party cycle.delivery = true) :
      Move state (.askSink party)
        { state with sinkLock := state.sinkLock.ask (.writing party) }
  | commit {party : Party} {cycle : Cycle} {batch : Staged}
      (active : state.activeCycle? party = some cycle) (stage : cycle.stage = .staged batch)
      (free : state.mayWrite party cycle.delivery = true) :
      Move state (.commit party)
        ((state.commit party cycle.delivery.target batch).finish party (.ok ()))
  | writeBroke {party : Party} {cycle : Cycle} {batch : Staged} {written : Nat} {reason : String}
      (active : state.activeCycle? party = some cycle) (stage : cycle.stage = .staged batch)
      (free : state.mayWrite party cycle.delivery = true)
      (short : written < batch.entries.length) :
      Move state (.writeBroke party written reason)
        ((state.write cycle.delivery.target (batch.entries.take written)).breakDown party reason)
  | abandon {host : Nat} {cycle : Cycle} (running : state.cycles (.host host) = some cycle) :
      Move state (.abandon host) ((state.endCycle (.host host)).note (.abandoned (.host host)))
  | arm {watcher : Watcher} (present : state.watcher = some watcher)
      (phase : watcher.phase = .starting) :
      Move state .arm
        (state.setWatcher { watcher with
          phase := .waiting (Alarm.armed state.settings state.interval state.commits state.now) })
  | rearm {watcher : Watcher} {alarm : Alarm} {interval : Duration}
      (active : state.activeWatcher? = some watcher) (phase : watcher.phase = .waiting alarm)
      (known : state.interval = some interval) (unheard : alarm.seen ≠ state.commits) :
      Move state .rearm
        (state.setWatcher
          { watcher with phase := Phase.rearmed interval state.commits state.now })
  | due {watcher : Watcher} {alarm : Alarm} (active : state.activeWatcher? = some watcher)
      (phase : watcher.phase = .waiting alarm) (heard : alarm.seen = state.commits)
      (reached : alarm.deadline ≤ state.now) :
      Move state .due
        ((state.setWatcher
          { watcher with phase := .refreshing 0, published := .refreshing }).note .turned)
  | resume {watcher : Watcher} {attempt : UInt32} {wake : Nat}
      (active : state.activeWatcher? = some watcher)
      (phase : watcher.phase = .pausing attempt wake) (reached : wake ≤ state.now) :
      Move state .resume
        ((state.setWatcher { watcher with phase := .refreshing (attempt + 1) }).note .turned)
  | launch {watcher : Watcher} {attempt : UInt32} (active : state.activeWatcher? = some watcher)
      (phase : watcher.phase = .refreshing attempt) (idle : state.cycles .watcher = none) :
      Move state .launch (state.beginCycle .watcher .locking)
  | requestStop {watcher : Watcher} (present : state.watcher = some watcher) :
      Move state .requestStop (state.setWatcher { watcher with stopRequested := true })
  | quitIdle {watcher : Watcher} (present : state.watcher = some watcher)
      (asked : watcher.stopRequested = true) (heeds : watcher.phase.heedsRequests = true)
      (idle : state.cycles .watcher = none) :
      Move state .quit
        (state.setWatcher { watcher with phase := .ended (.ok ()), published := .stopped })
  | quitCycle {watcher : Watcher} {cycle : Cycle} (present : state.watcher = some watcher)
      (asked : watcher.stopRequested = true) (heeds : watcher.phase.heedsRequests = true)
      (inCycle : state.cycles .watcher = some cycle) :
      Move state .quit
        (((state.endCycle .watcher).note (.abandoned .watcher)).setWatcher
          { watcher with phase := .ended (.ok ()), published := .stopped })
  | lockSink {host : Nat} (fresh : SinkClaim.guarding host ∉ state.sinkLock.claims) :
      Move state (.lockSink host) { state with sinkLock := state.sinkLock.ask (.guarding host) }
  | unlockSink {host : Nat} (claimed : SinkClaim.guarding host ∈ state.sinkLock.claims)
      (unused : ∀ cycle, state.cycles (.host host) = some cycle →
        cycle.delivery ≠ .direct .shared) :
      Move state (.unlockSink host)
        { state with sinkLock := state.sinkLock.leave (.guarding host) }
  | beginWait {host : Nat} {watcher : Watcher} (present : state.watcher = some watcher)
      (kept : watcher.handle = .kept) :
      Move state (.beginWait host) (state.setWatcher { watcher with handle := .taken host })
  | waitLate {host : Nat} {watcher : Watcher} (present : state.watcher = some watcher)
      (late : watcher.handle ≠ .kept) :
      Move state (.beginWait host) (state.note (.waited host (.ok ())))
  | finishWait {host : Nat} {watcher : Watcher} {outcome : Except LoadError Unit}
      (present : state.watcher = some watcher) (ended : watcher.phase.outcome? = some outcome)
      (taken : watcher.handle = .taken host) :
      Move state (.finishWait host)
        ((state.setWatcher { watcher with handle := .gone }).note (.waited host outcome))
  | dropWait {host : Nat} {watcher : Watcher} (present : state.watcher = some watcher)
      (taken : watcher.handle = .taken host) :
      Move state (.dropWait host) (state.setWatcher { watcher with handle := .gone })
  | advance {time : Nat} (later : state.now < time) (quiet : state.quiet = true)
      (timely : ∀ wake, state.wake? = some wake → time ≤ wake) :
      Move state (.advance time) { state with now := time }

variable {state next : State sink} {party : Party} {host : Nat}

/-- A task that keeps the shared sink to itself may load into it without asking for it. -/
theorem Move.of_begin? {delivery : Delivery}
    (step : state.begin? host delivery = some next) :
    Move state (.begin host delivery) next := by
  unfold State.begin? at step
  split at step
  · cases step
  · rename_i idle
    split at step
    · cases step
    · rename_i guarded
      cases step
      exact .begin (by simpa using idle) (by simpa [Lock.isHeldBy] using guarded)

/-- A cycle calls for a token as soon as it is its turn. -/
theorem Move.of_enter? (step : state.enter? party = some next) :
    Move state (.enter party) next := by
  obtain ⟨cycle, active, rest⟩ := Option.bind_eq_some_iff.mp step
  split at rest
  · rename_i stage
    split at rest
    · rename_i turn
      cases rest
      exact .enter active stage (by simpa [Lock.isHeldBy] using turn)
    · cases rest
  · cases rest

theorem Move.of_tokenReturned? {answer : Except LoadError AuthToken}
    (step : state.tokenReturned? party answer = some next) :
    Move state (.tokenReturned party answer) next := by
  obtain ⟨cycle, active, rest⟩ := Option.bind_eq_some_iff.mp step
  split at rest
  · rename_i auth stage
    cases rest
    exact .tokenCame active stage
  · rename_i error stage
    cases rest
    exact .tokenFailed active stage
  · cases rest

theorem Move.of_tokenTaken? (step : state.tokenTaken? party = some next) :
    Move state (.tokenTaken party) next := by
  obtain ⟨cycle, active, rest⟩ := Option.bind_eq_some_iff.mp step
  split at rest
  · rename_i auth stage
    cases rest
    exact .tokenTaken active stage
  · cases rest

theorem Move.of_readReturned? {answer : Except LoadError Secret}
    (step : state.readReturned? party answer = some next) :
    Move state (.readReturned party answer) next := by
  obtain ⟨cycle, active, rest⟩ := Option.bind_eq_some_iff.mp step
  split at rest
  · rename_i gathering secret stage
    cases rest
    exact .secretCame active stage
  · rename_i gathering error stage
    cases rest
    exact .secretFailed active stage
  · cases rest

/-- Each of the three calls may break down. -/
theorem Move.of_callBroke? {reason : String} (step : state.callBroke? party reason = some next) :
    Move state (.callBroke party reason) next := by
  obtain ⟨cycle, active, rest⟩ := Option.bind_eq_some_iff.mp step
  split at rest
  · rename_i stage
    cases rest
    exact .callBroke active (by rw [stage]; rfl)
  · rename_i stage
    cases rest
    exact .callBroke active (by rw [stage]; rfl)
  · rename_i stage
    cases rest
    exact .callBroke active (by rw [stage]; rfl)
  · cases rest

theorem Move.of_askSink? (step : state.askSink? party = some next) :
    Move state (.askSink party) next := by
  obtain ⟨cycle, active, rest⟩ := Option.bind_eq_some_iff.mp step
  split at rest
  · rename_i batch stage
    split at rest
    · rename_i toAsk
      cases rest
      exact .askSink active stage toAsk
    · cases rest
  · cases rest

/-- A staged batch is written when the sink is free for it. -/
theorem Move.of_commit? (step : state.commit? party = some next) :
    Move state (.commit party) next := by
  obtain ⟨cycle, active, rest⟩ := Option.bind_eq_some_iff.mp step
  obtain ⟨batch, staged, rest⟩ := Option.bind_eq_some_iff.mp rest
  split at rest
  · rename_i free
    cases rest
    exact .commit active (Stage.staged?_eq_some.mp staged) free
  · cases rest

/-- A write may break down before its last entry is written. -/
theorem Move.of_writeBroke? {written : Nat} {reason : String}
    (step : state.writeBroke? party written reason = some next) :
    Move state (.writeBroke party written reason) next := by
  obtain ⟨cycle, active, rest⟩ := Option.bind_eq_some_iff.mp step
  obtain ⟨batch, staged, rest⟩ := Option.bind_eq_some_iff.mp rest
  split at rest
  · rename_i free
    rw [Bool.and_eq_true, decide_eq_true_eq] at free
    cases rest
    exact .writeBroke active (Stage.staged?_eq_some.mp staged) free.1 free.2
  · cases rest

/-- A task of the program may give up its cycle at any time. -/
theorem Move.of_abandon? (step : state.abandon? host = some next) :
    Move state (.abandon host) next := by
  unfold State.abandon? at step
  split at step
  · rename_i running
    obtain ⟨cycle, running⟩ := Option.isSome_iff_exists.mp running
    cases step
    exact .abandon running
  · cases step

theorem Move.of_arm? (step : state.arm? = some next) :
    Move state .arm next := by
  obtain ⟨watcher, present, rest⟩ := Option.bind_eq_some_iff.mp step
  split at rest
  · rename_i phase
    cases rest
    exact .arm present phase
  · cases rest

/-- Of the branches of a wait the one that hears of a commit was taken, so there was no request to
stop. -/
theorem Move.of_rearm? (step : state.rearm? = some next) :
    Move state .rearm next := by
  obtain ⟨watcher, present, rest⟩ := Option.bind_eq_some_iff.mp step
  obtain ⟨interval, known, rest⟩ := Option.bind_eq_some_iff.mp rest
  split at rest
  · rename_i alarm phase
    split at rest
    · rename_i branch
      obtain ⟨free, unheard⟩ := Watcher.waitBranch?_eq_interval.mp branch
      cases rest
      exact .rearm (State.activeWatcher?_eq_some.mpr ⟨present, free⟩) phase known unheard
    · cases rest
  · cases rest

/-- The timer only counts when there is neither a request to stop nor a commit to hear of. -/
theorem Move.of_due? (step : state.due? = some next) :
    Move state .due next := by
  obtain ⟨watcher, present, rest⟩ := Option.bind_eq_some_iff.mp step
  split at rest
  · rename_i alarm phase
    split at rest
    · rename_i branch
      obtain ⟨free, heard, reached⟩ := Watcher.waitBranch?_eq_timer.mp branch
      cases rest
      exact .due (State.activeWatcher?_eq_some.mpr ⟨present, free⟩) phase heard reached
    · cases rest
  · cases rest

theorem Move.of_resume? (step : state.resume? = some next) :
    Move state .resume next := by
  obtain ⟨watcher, active, rest⟩ := Option.bind_eq_some_iff.mp step
  split at rest
  · rename_i attempt wake phase
    split at rest
    · rename_i reached
      cases rest
      exact .resume active phase reached
    · cases rest
  · cases rest

theorem Move.of_launch? (step : state.launch? = some next) :
    Move state .launch next := by
  obtain ⟨watcher, active, rest⟩ := Option.bind_eq_some_iff.mp step
  split at rest
  · rename_i turned
    cases rest
    unfold State.isTurnedToCycle at turned
    split at turned
    · rename_i attempt phase
      exact .launch active phase (by simpa using turned)
    · cases turned
  · cases rest

theorem Move.of_requestStop? (step : state.requestStop? = some next) :
    Move state .requestStop next := by
  obtain ⟨watcher, present, rest⟩ := Option.bind_eq_some_iff.mp step
  cases rest
  exact .requestStop present

/-- A task that is asked to stop gives up the cycle that it is in, if it is in one. -/
theorem Move.of_quit? (step : state.quit? = some next) :
    Move state .quit next := by
  obtain ⟨watcher, present, rest⟩ := Option.bind_eq_some_iff.mp step
  split at rest
  · rename_i stopping
    obtain ⟨asked, heeds⟩ := Watcher.comesToStop_iff.mp stopping
    cases rest
    cases inCycle : state.cycles .watcher with
    | none => exact .quitIdle present asked heeds inCycle
    | some cycle => exact .quitCycle present asked heeds inCycle
  · cases rest

theorem Move.of_lockSink? (step : state.lockSink? host = some next) :
    Move state (.lockSink host) next := by
  unfold State.lockSink? at step
  split at step
  · cases step
  · rename_i fresh
    cases step
    exact .lockSink fresh

/-- A task may let go of the sink unless a cycle of its own relies on it. -/
theorem Move.of_unlockSink? (step : state.unlockSink? host = some next) :
    Move state (.unlockSink host) next := by
  simp only [State.unlockSink?] at step
  split at step
  · rename_i free
    cases step
    refine .unlockSink free.1 fun cycle running direct => ?_
    simp [running, direct] at free
  · cases step

/-- The first task that asks takes the handle, and any later one is told at once that all is well.
-/
theorem Move.of_beginWait? (step : state.beginWait? host = some next) :
    Move state (.beginWait host) next := by
  obtain ⟨watcher, present, rest⟩ := Option.bind_eq_some_iff.mp step
  split at rest
  · rename_i kept
    cases rest
    exact .beginWait present kept
  · rename_i late
    cases rest
    exact .waitLate present late

theorem Move.of_finishWait? (step : state.finishWait? host = some next) :
    Move state (.finishWait host) next := by
  obtain ⟨watcher, present, rest⟩ := Option.bind_eq_some_iff.mp step
  obtain ⟨outcome, ended, rest⟩ := Option.bind_eq_some_iff.mp rest
  split at rest
  · rename_i taken
    cases rest
    exact .finishWait present ended taken
  · cases rest

theorem Move.of_dropWait? (step : state.dropWait? host = some next) :
    Move state (.dropWait host) next := by
  obtain ⟨watcher, present, rest⟩ := Option.bind_eq_some_iff.mp step
  split at rest
  · rename_i taken
    cases rest
    exact .dropWait present taken
  · cases rest

/-- Time passes only when nothing else can happen, and not beyond the next timer. -/
theorem Move.of_advance? {time : Nat} (step : state.advance? time = some next) :
    Move state (.advance time) next := by
  unfold State.advance? at step
  split at step
  · rename_i free
    cases step
    exact .advance free.1 free.2.1 fun wake due => by simpa [due] using free.2.2
  · cases step

/-- Every step is a move. -/
theorem Move.of_step? {action : Action} (step : state.step? action = some next) :
    Move state action next := by
  cases action with
  | begin host delivery => exact .of_begin? step
  | enter party => exact .of_enter? step
  | tokenReturned party answer => exact .of_tokenReturned? step
  | tokenTaken party => exact .of_tokenTaken? step
  | readReturned party answer => exact .of_readReturned? step
  | callBroke party reason => exact .of_callBroke? step
  | askSink party => exact .of_askSink? step
  | commit party => exact .of_commit? step
  | writeBroke party written reason => exact .of_writeBroke? step
  | abandon host => exact .of_abandon? step
  | arm => exact .of_arm? step
  | rearm => exact .of_rearm? step
  | due => exact .of_due? step
  | resume => exact .of_resume? step
  | launch => exact .of_launch? step
  | requestStop => exact .of_requestStop? step
  | quit => exact .of_quit? step
  | lockSink host => exact .of_lockSink? step
  | unlockSink host => exact .of_unlockSink? step
  | beginWait host => exact .of_beginWait? step
  | finishWait host => exact .of_finishWait? step
  | dropWait host => exact .of_dropWait? step
  | advance time => exact .of_advance? step

/-- Every move is a step. -/
theorem Move.step?_eq {action : Action} (move : Move state action next) :
    state.step? action = some next := by
  cases move with
  | begin idle guarded =>
    simp only [State.step?, State.begin?, idle, Option.isSome_none, Bool.false_eq_true, if_false]
    refine if_neg fun unguarded => ?_
    simp only [Lock.isHeldBy, Bool.and_eq_true, decide_eq_true_eq, Bool.not_eq_true',
      beq_eq_false_iff_ne] at unguarded
    exact unguarded.2 (guarded unguarded.1)
  | enter active stage turn => simp [State.step?, State.enter?, active, stage, Lock.isHeldBy, turn]
  | tokenCame active stage => simp [State.step?, State.tokenReturned?, active, stage]
  | tokenFailed active stage => simp [State.step?, State.tokenReturned?, active, stage]
  | tokenTaken active stage => simp [State.step?, State.tokenTaken?, active, stage]
  | secretCame active stage => simp [State.step?, State.readReturned?, active, stage]
  | secretFailed active stage => simp [State.step?, State.readReturned?, active, stage]
  | @callBroke party cycle reason active calling =>
    simp only [State.step?, State.callBroke?, active, Option.bind_eq_bind, Option.bind_some]
    cases stage : cycle.stage with
    | queued =>
      rw [stage] at calling
      cases calling
    | staged batch =>
      rw [stage] at calling
      cases calling
    | _ => rfl
  | askSink active stage toAsk => simp [State.step?, State.askSink?, active, stage, toAsk]
  | commit active stage free =>
    simp [State.step?, State.commit?, active, stage, Stage.staged?, free]
  | writeBroke active stage free short =>
    simp [State.step?, State.writeBroke?, active, stage, Stage.staged?, free, short]
  | abandon running => simp [State.step?, State.abandon?, running]
  | arm present phase => simp [State.step?, State.arm?, present, phase]
  | rearm active phase known unheard =>
    obtain ⟨present, free⟩ := State.activeWatcher?_eq_some.mp active
    simp [State.step?, State.rearm?, present, phase, known, Watcher.waitBranch?_eq_interval, free,
      unheard]
  | due active phase heard reached =>
    obtain ⟨present, free⟩ := State.activeWatcher?_eq_some.mp active
    simp [State.step?, State.due?, present, phase, Watcher.waitBranch?_eq_timer, free, heard,
      reached]
  | resume active phase reached => simp [State.step?, State.resume?, active, phase, reached]
  | launch active phase idle =>
    simp [State.step?, State.launch?, active, State.isTurnedToCycle, phase, idle]
  | requestStop present => simp [State.step?, State.requestStop?, present]
  | quitIdle present asked heeds idle =>
    simp [State.step?, State.quit?, present, Watcher.comesToStop_iff.mpr ⟨asked, heeds⟩, idle]
  | quitCycle present asked heeds inCycle =>
    simp [State.step?, State.quit?, present, Watcher.comesToStop_iff.mpr ⟨asked, heeds⟩, inCycle]
  | lockSink fresh => simp [State.step?, State.lockSink?, fresh]
  | @unlockSink host claimed unused =>
    simp only [State.step?, State.unlockSink?, claimed, true_and]
    refine if_pos ?_
    cases running : state.cycles (.host host) with
    | none => simp
    | some cycle => simp [unused cycle running]
  | beginWait present kept => simp [State.step?, State.beginWait?, present, kept]
  | waitLate present late => simp [State.step?, State.beginWait?, present]
  | finishWait present ended taken => simp [State.step?, State.finishWait?, present, ended, taken]
  | dropWait present taken => simp [State.step?, State.dropWait?, present, taken]
  | advance later quiet timely =>
    simp only [State.step?, State.advance?]
    refine if_pos ⟨later, quiet, ?_⟩
    cases wake : state.wake? with
    | none => rfl
    | some time => simpa using timely time wake

/-- A loader goes by the settings that it was built with. -/
theorem Move.settings_eq {action : Action} (move : Move state action next) :
    next.settings = state.settings := by
  cases move <;>
    simp only [State.beginCycle_eq, State.moveCycle_eq, State.endCycle_eq, State.setWatcher_eq,
      State.finish_eq, State.breakDown_eq, State.note, State.commit, State.write]

/-- Time does not go back. -/
theorem Move.now_le {action : Action} (move : Move state action next) : state.now ≤ next.now := by
  cases move with
  | advance later quiet timely => exact Nat.le_of_lt later
  | _ =>
    simp only [State.beginCycle_eq, State.moveCycle_eq, State.endCycle_eq, State.setWatcher_eq,
      State.finish_eq, State.breakDown_eq, State.note, State.commit, State.write, Nat.le_refl]

end

/-! ### Runs -/

namespace State

variable {sink : Type} {state : State sink} [ConfigSink sink]

/-- Two runs one after the other are one run. -/
theorem run?_append (start : State sink) (first second : List Action) :
    start.run? (first ++ second) = (start.run? first).bind fun middle => middle.run? second := by
  induction first generalizing start with
  | nil => rfl
  | cons action rest inductionHypothesis =>
    simp only [List.cons_append, run?]
    cases start.step? action with
    | none => rfl
    | some next => exact inductionHypothesis next

theorem run?_of_move {next : State sink} {action : Action} (move : Move state action next) :
    state.run? [action] = some next :=
  Option.bind_eq_some_iff.mpr ⟨next, move.step?_eq, rfl⟩

theorem run?_append_of_move {start next : State sink} {actions : List Action} {action : Action}
    (run : start.run? actions = some state) (move : Move state action next) :
    start.run? (actions ++ [action]) = some next := by
  rw [run?_append, run]
  exact run?_of_move move

/-- What holds at the start, before any action, and is kept by every move of a run holds wherever
the run leads. It may speak of the actions taken so far. -/
theorem run_induction (holds : List Action → State sink → Prop) {start : State sink}
    (initial : holds [] start)
    (kept : ∀ {actions state action next}, start.run? actions = some state →
      holds actions state → Move state action next → holds (actions ++ [action]) next)
    {actions : List Action} (run : start.run? actions = some state) : holds actions state := by
  suffices general : ∀ (rest taken : List Action) (middle : State sink),
      start.run? taken = some middle → holds taken middle →
        middle.run? rest = some state → holds (taken ++ rest) state from
    general actions [] start rfl initial run
  intro rest
  induction rest with
  | nil =>
    intro taken middle before held finished
    cases finished
    rwa [List.append_nil]
  | cons action rest inductionHypothesis =>
    intro taken middle before held finished
    obtain ⟨next, step, finished⟩ := Option.bind_eq_some_iff.mp finished
    have move : Move middle action next := .of_step? step
    rw [List.append_cons]
    exact inductionHypothesis _ next (run?_append_of_move before move) (kept before held move)
      finished

/-- A loader goes by the settings it began with wherever a run leads. -/
theorem settings_of_run {start : State sink} {actions : List Action}
    (run : start.run? actions = some state) : state.settings = start.settings :=
  run_induction (fun _ state => state.settings = start.settings) rfl
    (fun _ same move => move.settings_eq.trans same) run

end State

end SecretRenewal.Loader
