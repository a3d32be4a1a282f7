/-
This file says what each step does to the background task: to what it is doing, to what it tells
about itself, and to the log of its turns and of how its cycles end. Nearly every step leaves it
alone. What it tells agrees with what it is doing, it has a cycle only while it is refreshing, and
only a request makes it stop.
-/
import SecretRenewal.Proofs.Backoff.Delays
import SecretRenewal.Proofs.Loader.Commits

namespace SecretRenewal.Loader

/-- What the background task tells about itself in a phase; one that has broken down tells what it
told before. -/
def Phase.shown? : Phase → Option WatcherState
  | .starting | .waiting _ => some .idle
  | .refreshing _ | .pausing _ _ => some .refreshing
  | .ended _ => some .stopped
  | .brokeDown _ => none

/-! ### After a cycle -/

/-- Between retries it waits for the same time, whatever is drawn. -/
theorem delay_retryPolicy (settings : LoaderSettings) (attempt : UInt32)
    (draw : Binary64.Datum) : (retryPolicy settings).delay attempt draw = settings.retryDelay :=
  Backoff.delay_fixed settings.maxRetry settings.retryDelay attempt draw

/-- What the background task does after a cycle of its own has failed: it pauses while it may try
again, and otherwise ends or goes back to waiting. -/
theorem Watcher.afterCycle_error (watcher : Watcher) (settings : LoaderSettings) (now : Nat)
    (attempt : UInt32) (error : LoadError) :
    attempt < settings.maxRetry ∧
      watcher.afterCycle settings now attempt (.error error) =
        { watcher with phase := .pausing attempt (Clock.wakeTime now settings.retryDelay) } ∨
    settings.maxRetry ≤ attempt ∧ settings.stopOnFailure = true ∧
      watcher.afterCycle settings now attempt (.error error) =
        { watcher with
          phase := .ended (.error (.retryExhausted (attempt + 1) error))
          published := .stopped } ∨
    settings.maxRetry ≤ attempt ∧ settings.stopOnFailure = false ∧
      watcher.afterCycle settings now attempt (.error error) =
        { watcher with phase := .starting, published := .idle } := by
  unfold Watcher.afterCycle
  by_cases more : attempt < settings.maxRetry
  · refine .inl ⟨more, ?_⟩
    rw [Backoff.afterCall_of_lt more rfl, delay_retryPolicy]
  · have used : settings.maxRetry ≤ attempt := UInt32.not_lt.mp more
    rw [Backoff.afterCall_of_le used]
    cases stops : settings.stopOnFailure with
    | true => exact .inr (.inl ⟨used, rfl, if_pos rfl⟩)
    | false => exact .inr (.inr ⟨used, rfl, if_neg Bool.false_ne_true⟩)

theorem State.watcherAfter_of_refreshing {sink : Type} {state : State sink} {watcher : Watcher}
    {attempt : UInt32} (present : state.watcher = some watcher)
    (phase : watcher.phase = .refreshing attempt) (result : Except LoadError Unit) :
    state.watcherAfter .watcher result =
      some (watcher.afterCycle state.settings state.now attempt result) := by
  unfold State.watcherAfter
  simp only [present, phase]

/-! ### The log of the background task -/

/-- Whether something happened to the background task or to a cycle of its own. -/
def Event.isWatch : Event → Bool
  | .turned | .published _ => true
  | .finished party _ | .committed party _ _ | .abandoned party | .brokeDown party _ =>
    decide (party = .watcher)
  | _ => false

def watchNote? (entry : Nat × Event) : Option (Nat × Event) :=
  if entry.2.isWatch then some entry else none

namespace State

variable {sink : Type} (state : State sink)

/-- What has happened to the background task so far, the oldest first. -/
def watchLog : List (Nat × Event) := extract watchNote? state.history

/-- All that the background task tells about itself is in its log. -/
theorem extract_watchNote_tellings (after : Option Watcher) :
    extract watchNote? (state.tellings after) = state.tellings after := by
  unfold tellings
  split
  · rfl
  · cases after with
    | none => rfl
    | some watcher => rfl

/-- Of what happens, its log takes what concerns the background task. -/
theorem watchLog_note (event : Event) :
    (state.note event).watchLog = state.watchLog ++ (watchNote? (state.now, event)).toList :=
  extract_cons (state.now, event) state.history

theorem watchLog_setWatcher (watcher : Watcher) :
    (state.setWatcher watcher).watchLog = state.watchLog ++ state.tellings (some watcher) := by
  unfold watchLog
  rw [setWatcher_eq]
  show extract watchNote? (_ ++ state.history) = _
  rw [extract_append, extract_watchNote_tellings]

variable {state} in
/-- Whoever tells nothing new leaves the log as it is. -/
theorem watchLog_setWatcher_of_published {before after : Watcher}
    (present : state.watcher = some before) (same : after.published = before.published) :
    (state.setWatcher after).watchLog = state.watchLog := by
  rw [watchLog_setWatcher, tellings_of_published present same, List.append_nil]

theorem watchLog_moveCycle (party : Party) (cycle : Cycle) (stage : Stage) :
    (state.moveCycle party cycle stage).watchLog = state.watchLog := by
  unfold watchLog
  rw [extract_moveCycle]
  cases stage <;> exact List.append_nil _

theorem watchLog_endCycle (party : Party) :
    (state.endCycle party).watchLog = state.watchLog := by
  rw [endCycle_eq]
  rfl

theorem watchLog_finish (party : Party) (result : Except LoadError Unit) :
    (state.finish party result).watchLog =
      state.watchLog ++ (watchNote? (state.now, .finished party result)).toList ++
        state.tellings (state.watcherAfter party result) := by
  unfold watchLog
  rw [finish_eq]
  show extract watchNote? (_ ++ _ :: state.history) = _
  rw [extract_append, extract_watchNote_tellings, extract_cons]

theorem watchLog_breakDown (party : Party) (reason : String) :
    (state.breakDown party reason).watchLog =
      state.watchLog ++ (watchNote? (state.now, .brokeDown party reason)).toList :=
  extract_breakDown state party reason

theorem watchLog_write [ConfigSink sink] (target : Target) (entries : List (String × Json)) :
    (state.write target entries).watchLog = state.watchLog :=
  extract_write (fun _ _ _ _ => rfl) state target entries

theorem watchLog_commit [ConfigSink sink] (party : Party) (target : Target) (batch : Staged) :
    (state.commit party target batch).watchLog =
      state.watchLog ++ (watchNote? (state.now, .committed party target batch)).toList := by
  unfold commit
  rw [watchLog_note]
  exact congrArg (· ++ _) (watchLog_write state target batch.entries)

end State

/-! ### While everyone waits -/

/-- The background task has nothing to do while time passes. -/
theorem State.watcherReady_of_quiet {sink : Type} {state : State sink}
    (quiet : state.quiet = true) : state.watcherReady = false := by
  unfold State.quiet at quiet
  rw [Bool.and_eq_true, Bool.not_eq_true'] at quiet
  exact quiet.1

section

variable {sink : Type} {state : State sink} {watcher : Watcher}

/-- The clock stands still while anyone can go on. -/
theorem State.no_advance_of_busy [ConfigSink sink] (busy : state.quiet ≠ true) {time : Nat} :
    state.step? (.advance time) = none := by
  by_contra passes
  obtain ⟨next, step⟩ := Option.ne_none_iff_exists'.mp passes
  cases Move.of_step? step with
  | advance later quiet timely => exact busy quiet

theorem State.wake?_eq (present : state.watcher = some watcher) :
    state.wake? = watcher.phase.wake? := by
  unfold State.wake?
  rw [present]
  rfl

theorem State.not_starting_of_quiet (quiet : state.quiet = true)
    (present : state.watcher = some watcher) : watcher.phase ≠ .starting := by
  intro phase
  have ready := State.watcherReady_of_quiet quiet
  simp [State.watcherReady, present, phase, Phase.isRunning, Phase.outcome?] at ready

/-- When all wait, the background task has begun the cycle it turned to. -/
theorem State.not_turned_of_quiet (quiet : state.quiet = true)
    (present : state.watcher = some watcher) : state.isTurnedToCycle watcher ≠ true := by
  intro turned
  have running : watcher.phase.isRunning = true := by
    unfold State.isTurnedToCycle at turned
    split at turned
    · next attempt phase =>
      rw [phase]
      rfl
    · cases turned
  have ready := State.watcherReady_of_quiet quiet
  simp [State.watcherReady, present, running, turned] at ready

/-- Time passes only while the timer knows of every commit and is still to go off. -/
theorem State.waiting_of_quiet (quiet : state.quiet = true)
    (present : state.watcher = some watcher) {alarm : Alarm}
    (phase : watcher.phase = .waiting alarm) :
    alarm.seen = state.commits ∧ state.now < alarm.deadline := by
  have ready := State.watcherReady_of_quiet quiet
  simp [State.watcherReady, present, phase, Phase.isRunning, Phase.outcome?] at ready
  exact ready.2

/-- When all wait, a pause is not over. -/
theorem State.pausing_of_quiet (quiet : state.quiet = true)
    (present : state.watcher = some watcher) {attempt : UInt32} {wake : Nat}
    (phase : watcher.phase = .pausing attempt wake) : state.now < wake := by
  have ready := State.watcherReady_of_quiet quiet
  simp [State.watcherReady, present, phase, Phase.isRunning, Phase.outcome?] at ready
  exact ready.2

end

/-! ### Steps that leave the background task alone -/

variable {sink : Type}

/-- The background task, its cycle and its log are as they were. -/
structure Untouched (state next : State sink) : Prop where
  now : next.now = state.now
  watcher : next.watcher = state.watcher
  cycle : next.cycles .watcher = none ↔ state.cycles .watcher = none
  log : next.watchLog = state.watchLog

namespace Untouched

variable {state middle next : State sink}

theorem refl (state : State sink) : Untouched state state := ⟨rfl, rfl, Iff.rfl, rfl⟩

theorem trans (first : Untouched state middle) (second : Untouched middle next) :
    Untouched state next where
  now := second.now.trans first.now
  watcher := second.watcher.trans first.watcher
  cycle := second.cycle.trans first.cycle
  log := second.log.trans first.log

/-- Events that do not concern the background task leave it alone. -/
theorem note (same : Untouched state next) {event : Event}
    (silent : watchNote? (next.now, event) = none) : Untouched state (next.note event) := by
  refine same.trans ⟨rfl, rfl, Iff.rfl, ?_⟩
  rw [State.watchLog_note, silent]
  exact List.append_nil _

theorem beginCycle (state : State sink) (host : Nat) (delivery : Delivery) :
    Untouched state (state.beginCycle (.host host) delivery) := by
  rw [State.beginCycle_eq]
  exact ⟨rfl, rfl, Iff.rfl, rfl⟩

theorem moveCycle {party : Party} {cycle : Cycle} (running : state.cycles party = some cycle)
    (stage : Stage) : Untouched state (state.moveCycle party cycle stage) := by
  have log := State.watchLog_moveCycle state party cycle stage
  rw [State.moveCycle_eq] at log ⊢
  refine ⟨rfl, rfl, ?_, log⟩
  cases party with
  | host number => exact Iff.rfl
  | watcher =>
    rw [running]
    exact iff_of_false (Option.some_ne_none _) (Option.some_ne_none _)

theorem endCycle (state : State sink) (host : Nat) :
    Untouched state (state.endCycle (.host host)) := by
  rw [State.endCycle_eq]
  exact ⟨rfl, rfl, Iff.rfl, rfl⟩

/-- A cycle of the program that ends leaves the background task alone. -/
theorem finish (state : State sink) (host : Nat) (result : Except LoadError Unit) :
    Untouched state (state.finish (.host host) result) := by
  have silent : state.tellings (state.watcherAfter (.host host) result) = [] :=
    State.tellings_of_same rfl
  have log := State.watchLog_finish state (.host host) result
  rw [silent, List.append_nil] at log
  rw [State.finish_eq] at log ⊢
  exact ⟨rfl, rfl, Iff.rfl, log.trans (List.append_nil _)⟩

theorem breakDown (state : State sink) (host : Nat) (reason : String) :
    Untouched state (state.breakDown (.host host) reason) := by
  have log := State.watchLog_breakDown state (.host host) reason
  rw [State.breakDown_eq] at log ⊢
  exact ⟨rfl, rfl, Iff.rfl, log.trans (List.append_nil _)⟩

theorem write [ConfigSink sink] (state : State sink) (target : Target)
    (entries : List (String × Json)) : Untouched state (state.write target entries) :=
  ⟨rfl, rfl, Iff.rfl, State.watchLog_write state target entries⟩

theorem commit [ConfigSink sink] (state : State sink) (host : Nat) (target : Target)
    (batch : Staged) : Untouched state (state.commit (.host host) target batch) :=
  ⟨rfl, rfl, Iff.rfl, (State.watchLog_commit state (.host host) target batch).trans
    (List.append_nil _)⟩

end Untouched

/-! ### Steps of the background task -/

/-- The background task goes on with what it was doing, while a request to stop may come in. -/
structure SameTask (action : Action) (before after : Watcher) : Prop where
  phase : after.phase = before.phase
  published : after.published = before.published
  kept : before.stopRequested = true → after.stopRequested = true
  asked : after.stopRequested = true → before.stopRequested = true ∨ action = .requestStop

theorem SameTask.exists_before {action : Action} {before after : Option Watcher}
    (task : Option.Rel (SameTask action) before after) {watcher : Watcher}
    (present : after = some watcher) :
    ∃ old, before = some old ∧ SameTask action old watcher := by
  cases task with
  | some same =>
    cases present
    exact ⟨_, rfl, same⟩
  | none => cases present

/-- A background task that was there is there after the step. -/
theorem SameTask.exists_after {action : Action} {before after : Option Watcher}
    (task : Option.Rel (SameTask action) before after) {watcher : Watcher}
    (present : before = some watcher) :
    ∃ new, after = some new ∧ SameTask action watcher new := by
  cases task with
  | some same =>
    cases present
    exact ⟨_, rfl, same⟩
  | none => cases present

/-- The error that a call of the background task returns with an action. -/
def Action.failure? : Action → Option LoadError
  | .tokenReturned .watcher (.error error) | .readReturned .watcher (.error error) => some error
  | _ => none

/-- Why a call or a write of the background task breaks down with an action. -/
def Action.breakage? : Action → Option String
  | .callBroke .watcher reason | .writeBroke .watcher _ reason => some reason
  | _ => none

/-- What a step does to the background task. -/
inductive WatchStep (state : State sink) : Action → State sink → Prop
  | apart {action : Action} {next : State sink} (noCommit : action ≠ .commit .watcher)
      (task : Option.Rel (SameTask action) state.watcher next.watcher)
      (now : next.now = state.now)
      (cycle : next.cycles .watcher ≠ none → state.cycles .watcher ≠ none ∨
        ∃ watcher attempt, state.watcher = some watcher ∧ watcher.phase = .refreshing attempt)
      (log : next.watchLog = state.watchLog) : WatchStep state action next
  | arm {watcher after : Watcher} {next : State sink} (present : state.watcher = some watcher)
      (phase : watcher.phase = .starting)
      (isAfter : after = { watcher with
        phase := .waiting (Alarm.armed state.settings state.interval state.commits state.now) })
      (task : next.watcher = some after) (now : next.now = state.now)
      (cycle : next.cycles .watcher = state.cycles .watcher)
      (log : next.watchLog = state.watchLog) : WatchStep state .arm next
  | rearm {watcher after : Watcher} {alarm : Alarm} {interval : Duration} {next : State sink}
      (present : state.watcher = some watcher) (phase : watcher.phase = .waiting alarm)
      (known : state.interval = some interval) (unheard : alarm.seen ≠ state.commits)
      (isAfter : after = { watcher with
        phase := Phase.rearmed interval state.commits state.now })
      (task : next.watcher = some after) (now : next.now = state.now)
      (cycle : next.cycles .watcher = state.cycles .watcher)
      (log : next.watchLog = state.watchLog) : WatchStep state .rearm next
  | due {watcher after : Watcher} {alarm : Alarm} {next : State sink}
      (present : state.watcher = some watcher) (phase : watcher.phase = .waiting alarm)
      (heard : alarm.seen = state.commits) (reached : alarm.deadline ≤ state.now)
      (isAfter : after = { watcher with phase := .refreshing 0, published := .refreshing })
      (task : next.watcher = some after) (now : next.now = state.now)
      (cycle : next.cycles .watcher = state.cycles .watcher)
      (log : next.watchLog =
        state.watchLog ++ state.tellings (some after) ++ [(state.now, .turned)]) :
      WatchStep state .due next
  | resume {watcher after : Watcher} {attempt : UInt32} {wake : Nat} {next : State sink}
      (present : state.watcher = some watcher) (phase : watcher.phase = .pausing attempt wake)
      (reached : wake ≤ state.now)
      (isAfter : after = { watcher with phase := .refreshing (attempt + 1) })
      (task : next.watcher = some after) (now : next.now = state.now)
      (cycle : next.cycles .watcher = state.cycles .watcher)
      (log : next.watchLog = state.watchLog ++ [(state.now, .turned)]) :
      WatchStep state .resume next
  | failed {action : Action} {error : LoadError} {next : State sink}
      (noCommit : ∀ party, action ≠ .commit party) (running : state.cycles .watcher ≠ none)
      (task : next.watcher = state.watcherAfter .watcher (.error error))
      (now : next.now = state.now) (cycle : next.cycles .watcher = none)
      (log : next.watchLog = state.watchLog ++ [(state.now, .finished .watcher (.error error))] ++
        state.tellings next.watcher)
      (cause : action.failure? = some error) : WatchStep state action next
  | committed (target : Target) (batch : Staged) {next : State sink}
      (running : state.cycles .watcher ≠ none)
      (task : next.watcher = state.watcherAfter .watcher (.ok ()))
      (now : next.now = state.now) (cycle : next.cycles .watcher = none)
      (log : next.watchLog = state.watchLog ++ [(state.now, .committed .watcher target batch),
        (state.now, .finished .watcher (.ok ()))] ++ state.tellings next.watcher) :
      WatchStep state (.commit .watcher) next
  | brokeDown {action : Action} {reason : String} {next : State sink}
      (noCommit : ∀ party, action ≠ .commit party) (running : state.cycles .watcher ≠ none)
      (task : next.watcher = state.watcherBroken reason .watcher)
      (now : next.now = state.now) (cycle : next.cycles .watcher = none)
      (log : next.watchLog = state.watchLog ++ [(state.now, .brokeDown .watcher reason)])
      (cause : action.breakage? = some reason) : WatchStep state action next
  | quit {watcher after : Watcher} {left : List (Nat × Event)} {next : State sink}
      (present : state.watcher = some watcher) (asked : watcher.stopRequested = true)
      (running : watcher.phase.isRunning = true)
      (isAfter : after = { watcher with phase := .ended (.ok ()), published := .stopped })
      (task : next.watcher = some after) (now : next.now = state.now)
      (cycle : next.cycles .watcher = none)
      (gaveUp : left = [] ∧ state.cycles .watcher = none ∨
        left = [(state.now, .abandoned .watcher)] ∧ state.cycles .watcher ≠ none)
      (log : next.watchLog = state.watchLog ++ left ++ state.tellings (some after)) :
      WatchStep state .quit next
  | advance {time : Nat} {next : State sink} (later : state.now < time)
      (quiet : state.quiet = true) (timely : ∀ wake, state.wake? = some wake → time ≤ wake)
      (task : next.watcher = state.watcher) (now : next.now = time)
      (cycle : next.cycles .watcher = state.cycles .watcher)
      (log : next.watchLog = state.watchLog) : WatchStep state (.advance time) next

namespace WatchStep

variable {state next : State sink} {action : Action}

theorem of_untouched (noCommit : action ≠ .commit .watcher) (same : Untouched state next) :
    WatchStep state action next := by
  refine .apart noCommit ?_ same.now (fun running => .inl (mt same.cycle.mpr running)) same.log
  rw [same.watcher]
  cases state.watcher with
  | none => exact .none
  | some watcher => exact .some ⟨rfl, rfl, id, .inl⟩

/-- A change of the background task that is none to what it is doing. -/
theorem of_sameTask (noCommit : action ≠ .commit .watcher) {before after : Watcher}
    (present : state.watcher = some before) (same : SameTask action before after)
    (rest : Untouched (state.setWatcher after) next) : WatchStep state action next := by
  refine .apart noCommit ?_ (rest.now.trans (State.now_setWatcher ..)) (fun running => ?_) ?_
  · rw [rest.watcher, State.watcher_setWatcher, present]
    exact .some same
  · have before := mt rest.cycle.mpr running
    rw [State.cycles_setWatcher] at before
    exact .inl before
  · exact rest.log.trans (State.watchLog_setWatcher_of_published present same.published)

/-- A cycle fails with the error that its step came with. -/
theorem of_failure (noCommit : ∀ party, action ≠ .commit party) {party : Party}
    (running : state.cycles party ≠ none) {error : LoadError}
    (cause : party = .watcher → action.failure? = some error) :
    WatchStep state action (state.finish party (.error error)) := by
  cases party with
  | host number => exact .of_untouched (noCommit _) (.finish ..)
  | watcher =>
    refine .failed noCommit running (State.watcher_finish ..) (State.now_finish ..)
      (State.cycles_finish_self ..) ?_ (cause rfl)
    rw [State.watchLog_finish, State.watcher_finish]
    rfl

theorem of_breakDown (noCommit : ∀ party, action ≠ .commit party) {party : Party}
    (running : state.cycles party ≠ none) {reason : String}
    (cause : party = .watcher → action.breakage? = some reason) :
    WatchStep state action (state.breakDown party reason) := by
  cases party with
  | host number => exact .of_untouched (noCommit _) (.breakDown ..)
  | watcher =>
    refine .brokeDown noCommit running (State.watcher_breakDown ..) (State.now_breakDown ..)
      (State.cycles_breakDown_self ..) ?_ (cause rfl)
    rw [State.watchLog_breakDown]
    rfl

/-- The background task tells something new only when its timer goes off, when a cycle of its own
ends, or when it ends itself. -/
theorem published_eq_or (watch : WatchStep state action next) {before after : Watcher}
    (isBefore : state.watcher = some before) (isAfter : next.watcher = some after) :
    after.published = before.published ∨
    (∃ alarm, before.phase = .waiting alarm ∧ alarm.seen = state.commits ∧
      alarm.deadline ≤ state.now ∧ after.published = .refreshing) ∨
    (state.cycles .watcher ≠ none ∧ next.now = state.now ∧
      ((∀ party, action ≠ .commit party) ∨ action = .commit .watcher) ∧
      ∃ result, next.watcher = state.watcherAfter .watcher result) ∨
    after.published = .stopped := by
  cases watch with
  | apart noCommit task now cycle log =>
    obtain ⟨old, present, same⟩ := SameTask.exists_before task isAfter
    rw [isBefore] at present
    cases present
    exact .inl same.published
  | arm present phase isTask task now cycle log =>
    rw [isBefore] at present
    rw [isAfter] at task
    cases present
    cases task
    exact .inl (by rw [isTask])
  | rearm present phase known unheard isTask task now cycle log =>
    rw [isBefore] at present
    rw [isAfter] at task
    cases present
    cases task
    exact .inl (by rw [isTask])
  | @due _ _ alarm _ present phase heard reached isTask task now cycle log =>
    rw [isBefore] at present
    rw [isAfter] at task
    cases present
    cases task
    exact .inr (.inl ⟨alarm, phase, heard, reached, by rw [isTask]⟩)
  | resume present phase reached isTask task now cycle log =>
    rw [isBefore] at present
    rw [isAfter] at task
    cases present
    cases task
    exact .inl (by rw [isTask])
  | failed noCommit running task now cycle log =>
    exact .inr (.inr (.inl ⟨running, now, .inl noCommit, _, task⟩))
  | committed target batch running task now cycle log =>
    exact .inr (.inr (.inl ⟨running, now, .inr rfl, _, task⟩))
  | brokeDown noCommit running task now cycle log =>
    obtain ⟨old, present, rfl⟩ := Option.map_eq_some_iff.mp (task.symm.trans isAfter)
    rw [isBefore] at present
    cases present
    exact .inl rfl
  | quit present asked running isTask task now cycle gaveUp log =>
    rw [isAfter] at task
    cases task
    exact .inr (.inr (.inr (by rw [isTask])))
  | advance later quiet timely task now cycle log =>
    rw [task, isBefore] at isAfter
    cases isAfter
    exact .inl rfl

/-! Steps of a cycle, whoever runs it -/

section

variable {party : Party} {cycle : Cycle}

theorem of_enter (active : state.activeCycle? party = some cycle) :
    WatchStep state (.enter party)
      ((state.moveCycle party cycle .authenticating).note (.asked party)) := by
  have moved := Untouched.moveCycle (State.cycles_of_active active) .authenticating
  exact .of_untouched (by nofun) (moved.note rfl)

theorem of_tokenCame (active : state.activeCycle? party = some cycle) (auth : AuthToken) :
    WatchStep state (.tokenReturned party (.ok auth))
      (((state.moveCycle party cycle (.handingOver auth)).note
        (.leased party auth.lease)).note (.handed party auth.token)) := by
  have moved := Untouched.moveCycle (State.cycles_of_active active) (.handingOver auth)
  exact .of_untouched (by nofun) ((moved.note rfl).note rfl)

theorem of_tokenTaken (active : state.activeCycle? party = some cycle) (auth : AuthToken) :
    WatchStep state (.tokenTaken party)
      ({ state with storeToken := some auth.token }.moveCycle party cycle
        (.afterToken state.settings.secrets auth.lease)) := by
  have taken : Untouched state { state with storeToken := some auth.token } :=
    ⟨rfl, rfl, Iff.rfl, rfl⟩
  refine .of_untouched (by nofun) (taken.trans (.moveCycle ?_ _))
  exact State.cycles_of_active active

theorem of_secretCame (active : state.activeCycle? party = some cycle) (gathering : Gathering)
    (secret : Secret) :
    WatchStep state (.readReturned party (.ok secret))
      ((state.note (.leased party secret.lease)).moveCycle party cycle
        (.afterRead gathering secret)) := by
  have leased : Untouched state (state.note (.leased party secret.lease)) :=
    (Untouched.refl state).note rfl
  refine .of_untouched (by nofun) (leased.trans (.moveCycle ?_ _))
  exact State.cycles_of_active active

end

/-! Steps of the background task itself -/

section

variable {watcher : Watcher}

theorem of_arm (present : state.watcher = some watcher) (phase : watcher.phase = .starting) :
    WatchStep state .arm (state.setWatcher { watcher with
      phase := .waiting (Alarm.armed state.settings state.interval state.commits state.now) }) := by
  refine .arm present phase rfl (State.watcher_setWatcher ..) (State.now_setWatcher ..)
    (congrFun (State.cycles_setWatcher ..) _) ?_
  exact State.watchLog_setWatcher_of_published present rfl

theorem of_rearm {alarm : Alarm} {interval : Duration} (present : state.watcher = some watcher)
    (phase : watcher.phase = .waiting alarm) (known : state.interval = some interval)
    (unheard : alarm.seen ≠ state.commits) :
    WatchStep state .rearm (state.setWatcher
      { watcher with phase := Phase.rearmed interval state.commits state.now }) := by
  refine .rearm present phase known unheard rfl (State.watcher_setWatcher ..)
    (State.now_setWatcher ..) (congrFun (State.cycles_setWatcher ..) _) ?_
  exact State.watchLog_setWatcher_of_published present rfl

theorem of_due {alarm : Alarm} (present : state.watcher = some watcher)
    (phase : watcher.phase = .waiting alarm) (heard : alarm.seen = state.commits)
    (reached : alarm.deadline ≤ state.now) :
    WatchStep state .due ((state.setWatcher
      { watcher with phase := .refreshing 0, published := .refreshing }).note .turned) := by
  refine .due present phase heard reached rfl (State.watcher_setWatcher ..)
    (State.now_setWatcher ..) (congrFun (State.cycles_setWatcher ..) _) ?_
  rw [State.watchLog_note, State.watchLog_setWatcher, State.now_setWatcher]
  rfl

theorem of_resume {attempt : UInt32} {wake : Nat} (present : state.watcher = some watcher)
    (phase : watcher.phase = .pausing attempt wake) (reached : wake ≤ state.now) :
    WatchStep state .resume
      ((state.setWatcher { watcher with phase := .refreshing (attempt + 1) }).note .turned) := by
  refine .resume present phase reached rfl (State.watcher_setWatcher ..)
    (State.now_setWatcher ..) (congrFun (State.cycles_setWatcher ..) _) ?_
  rw [State.watchLog_note, State.now_setWatcher]
  exact congrArg (· ++ _) (State.watchLog_setWatcher_of_published present rfl)

theorem of_launch {attempt : UInt32} (present : state.watcher = some watcher)
    (phase : watcher.phase = .refreshing attempt) :
    WatchStep state .launch (state.beginCycle .watcher .locking) := by
  rw [State.beginCycle_eq]
  refine .apart (by nofun) ?_ rfl (fun _ => .inr ⟨watcher, attempt, present, phase⟩) rfl
  rw [present]
  exact .some ⟨rfl, rfl, id, .inl⟩

theorem of_quitIdle (present : state.watcher = some watcher)
    (asked : watcher.stopRequested = true) (running : watcher.phase.isRunning = true)
    (idle : state.cycles .watcher = none) :
    WatchStep state .quit
      (state.setWatcher { watcher with phase := .ended (.ok ()), published := .stopped }) := by
  refine .quit present asked running rfl (State.watcher_setWatcher ..)
    (State.now_setWatcher ..) ?_ (.inl ⟨rfl, idle⟩) ?_
  · rw [State.cycles_setWatcher, idle]
  · rw [State.watchLog_setWatcher, List.append_nil]

theorem of_quitCycle {cycle : Cycle} (present : state.watcher = some watcher)
    (asked : watcher.stopRequested = true) (running : watcher.phase.isRunning = true)
    (inCycle : state.cycles .watcher = some cycle) :
    WatchStep state .quit
      (((state.endCycle .watcher).note (.abandoned .watcher)).setWatcher
        { watcher with phase := .ended (.ok ()), published := .stopped }) := by
  refine .quit present asked running rfl (State.watcher_setWatcher ..) ?_ ?_
    (.inr ⟨rfl, by rw [inCycle]; nofun⟩) ?_
  · rw [State.now_setWatcher, State.endCycle_eq]
    rfl
  · rw [State.cycles_setWatcher]
    exact State.cycles_endCycle_self state .watcher
  · rw [State.watchLog_setWatcher, State.watchLog_note, State.watchLog_endCycle,
      State.endCycle_eq]
    rfl

end

variable [ConfigSink sink]

/-- A cycle commits and ends well in one step. -/
theorem of_commit {party : Party} (running : state.cycles party ≠ none) (target : Target)
    (batch : Staged) :
    WatchStep state (.commit party) ((state.commit party target batch).finish party (.ok ())) := by
  cases party with
  | host number => exact .of_untouched (by simp) ((Untouched.commit ..).trans (.finish ..))
  | watcher =>
    refine .committed target batch running (State.watcher_finish ..)
      (State.now_finish ..) (State.cycles_finish_self ..) ?_
    rw [State.watchLog_finish, State.watchLog_commit, State.watcher_finish,
      List.append_assoc state.watchLog]
    rfl

theorem of_writeBroke {party : Party} (running : state.cycles party ≠ none) (target : Target)
    (entries : List (String × Json)) (written : Nat) (reason : String) :
    WatchStep state (.writeBroke party written reason)
      ((state.write target entries).breakDown party reason) := by
  cases party with
  | host number => exact .of_untouched (by nofun) ((Untouched.write ..).trans (.breakDown ..))
  | watcher =>
    refine .brokeDown (by nofun) running (State.watcher_breakDown ..) (State.now_breakDown ..)
      (State.cycles_breakDown_self ..) ?_ rfl
    rw [State.watchLog_breakDown, State.watchLog_write]
    rfl

/-- The step of the background task for each move of a loader. -/
theorem of_move (move : Move state action next) : WatchStep state action next := by
  have same : Untouched state state := .refl state
  have running {party : Party} {cycle : Cycle} (active : state.activeCycle? party = some cycle) :
      state.cycles party ≠ none := by
    rw [State.cycles_of_active active]
    exact Option.some_ne_none cycle
  cases move with
  | begin idle guarded => exact .of_untouched (by nofun) (.beginCycle ..)
  | enter active stage turn => exact .of_enter active
  | tokenCame active stage => exact .of_tokenCame active _
  | tokenFailed active stage =>
    exact .of_failure (by nofun) (running active) (by rintro rfl; rfl)
  | tokenTaken active stage => exact .of_tokenTaken active _
  | secretCame active stage => exact .of_secretCame active _ _
  | secretFailed active stage =>
    exact .of_failure (by nofun) (running active) (by rintro rfl; rfl)
  | callBroke active calling =>
    exact .of_breakDown (by nofun) (running active) (by rintro rfl; rfl)
  | askSink active stage toAsk => exact .of_untouched (by nofun) ⟨rfl, rfl, Iff.rfl, rfl⟩
  | commit active stage free => exact .of_commit (running active) _ _
  | writeBroke active stage free short => exact .of_writeBroke (running active) ..
  | abandon running => exact .of_untouched (by nofun) ((Untouched.endCycle ..).note rfl)
  | arm present phase => exact .of_arm present phase
  | rearm active phase known unheard =>
    exact .of_rearm (State.watcher_of_active active) phase known unheard
  | due active phase heard reached =>
    exact .of_due (State.watcher_of_active active) phase heard reached
  | resume active phase reached =>
    exact .of_resume (State.watcher_of_active active) phase reached
  | launch active phase idle => exact .of_launch (State.watcher_of_active active) phase
  | requestStop present =>
    refine .of_sameTask (by nofun) present ?_ (.refl _)
    exact ⟨rfl, rfl, fun _ => rfl, fun _ => .inr rfl⟩
  | quitIdle present asked heeds idle =>
    exact .of_quitIdle present asked (Phase.isRunning_of_heedsRequests heeds) idle
  | quitCycle present asked heeds inCycle =>
    exact .of_quitCycle present asked (Phase.isRunning_of_heedsRequests heeds) inCycle
  | lockSink fresh => exact .of_untouched (by nofun) ⟨rfl, rfl, Iff.rfl, rfl⟩
  | unlockSink claimed unused => exact .of_untouched (by nofun) ⟨rfl, rfl, Iff.rfl, rfl⟩
  | beginWait present kept =>
    refine .of_sameTask (by nofun) present ?_ (.refl _)
    exact ⟨rfl, rfl, id, .inl⟩
  | waitLate present late => exact .of_untouched (by nofun) (same.note rfl)
  | finishWait present ended taken =>
    refine .of_sameTask (by nofun) present ?_ ((Untouched.refl _).note rfl)
    exact ⟨rfl, rfl, id, .inl⟩
  | dropWait present taken =>
    refine .of_sameTask (by nofun) present ?_ (.refl _)
    exact ⟨rfl, rfl, id, .inl⟩
  | advance later quiet timely => exact .advance later quiet timely rfl rfl rfl rfl

end WatchStep

/-! ### Runs -/

/-- What the background task tells agrees with what it is doing. -/
def Watcher.IsHonest (watcher : Watcher) : Prop :=
  ∀ told, watcher.phase.shown? = some told → watcher.published = told

/-- Nobody who still runs tells that he has ended. -/
theorem Watcher.IsHonest.ne_stopped {watcher : Watcher} (honest : watcher.IsHonest)
    (running : watcher.phase.isRunning = true) : watcher.published ≠ .stopped := by
  obtain ⟨phase, published, stopRequested, handle⟩ := watcher
  have told := honest
  cases phase with
  | starting => rw [told .idle rfl]; nofun
  | waiting alarm => rw [told .idle rfl]; nofun
  | refreshing attempt => rw [told .refreshing rfl]; nofun
  | pausing attempt wake => rw [told .refreshing rfl]; nofun
  | ended outcome => cases running
  | brokeDown reason => cases running

/-- After a cycle the background task tells what it is doing. -/
theorem Watcher.afterCycle_isHonest (watcher : Watcher) (settings : LoaderSettings) (now : Nat)
    {attempt : UInt32} (honest : watcher.IsHonest) (phase : watcher.phase = .refreshing attempt)
    (result : Except LoadError Unit) :
    (watcher.afterCycle settings now attempt result).IsHonest := by
  have refreshing : watcher.published = .refreshing := honest _ (by rw [phase]; rfl)
  cases result with
  | ok done => exact fun told shown => Option.some.inj shown
  | error error =>
    rcases watcher.afterCycle_error settings now attempt error with
      ⟨-, after⟩ | ⟨-, -, after⟩ | ⟨-, -, after⟩
    · rw [after]
      exact fun told shown => refreshing.trans (Option.some.inj shown)
    · rw [after]
      exact fun told shown => Option.some.inj shown
    · rw [after]
      exact fun told shown => Option.some.inj shown

/-- A cycle that ends does not take back a request to stop. -/
theorem Watcher.afterCycle_stopRequested (watcher : Watcher) (settings : LoaderSettings)
    (now : Nat) (attempt : UInt32) (result : Except LoadError Unit) :
    (watcher.afterCycle settings now attempt result).stopRequested = watcher.stopRequested := by
  cases result with
  | ok done => rfl
  | error error =>
    rcases watcher.afterCycle_error settings now attempt error with
      ⟨-, after⟩ | ⟨-, -, after⟩ | ⟨-, -, after⟩ <;> rw [after]

theorem State.stopRequested_watcherAfter (state : State sink) (party : Party)
    (result : Except LoadError Unit) :
    (state.watcherAfter party result).map Watcher.stopRequested =
      state.watcher.map Watcher.stopRequested := by
  unfold watcherAfter
  split
  · rename_i watcher present
    split
    · rw [present, Option.map_some, Option.map_some, watcher.afterCycle_stopRequested]
    · rw [present]
  · rfl

/-- Only a request to stop keeps the background task from acting. -/
theorem WatchStep.mayAct_eq {state next : State sink} {action : Action}
    (watch : WatchStep state action next) (noRequest : action ≠ .requestStop) (party : Party) :
    next.mayAct party = state.mayAct party := by
  have barred (state : State sink) :
      state.mayAct .watcher = (state.watcher.map Watcher.stopRequested).any (!·) := by
    cases present : state.watcher with
    | none => rw [State.mayAct, present]; rfl
    | some watcher => exact State.mayAct_watcher present
  cases party with
  | host number => rfl
  | watcher =>
    suffices same : next.watcher.map Watcher.stopRequested =
        state.watcher.map Watcher.stopRequested by rw [barred, barred, same]
    have kept {before after : Watcher} (present : state.watcher = some before)
        (task : next.watcher = some after)
        (same : after.stopRequested = before.stopRequested) :
        next.watcher.map Watcher.stopRequested = state.watcher.map Watcher.stopRequested := by
      rw [task, present, Option.map_some, Option.map_some, same]
    cases watch with
    | apart noCommit task now cycle log =>
      cases before : state.watcher with
      | none =>
        cases after : next.watcher with
        | none => rfl
        | some watcher =>
          obtain ⟨old, isOld, -⟩ := SameTask.exists_before task after
          rw [before] at isOld
          cases isOld
      | some watcher =>
        obtain ⟨after, isAfter, same⟩ := SameTask.exists_after task before
        rw [isAfter, Option.map_some, Option.map_some]
        refine congrArg some (Bool.eq_iff_iff.mpr ⟨fun asked => ?_, same.kept⟩)
        exact (same.asked asked).resolve_right noRequest
    | arm present phase isAfter task =>
      exact kept present task (by rw [isAfter])
    | rearm present phase known unheard isAfter task =>
      exact kept present task (by rw [isAfter])
    | due present phase heard reached isAfter task =>
      exact kept present task (by rw [isAfter])
    | resume present phase reached isAfter task =>
      exact kept present task (by rw [isAfter])
    | failed noCommit running task => rw [task, State.stopRequested_watcherAfter]
    | committed target batch running task => rw [task, State.stopRequested_watcherAfter]
    | brokeDown noCommit running task =>
      rw [task]
      exact Option.map_map ..
    | quit present asked running isAfter task =>
      exact kept present task (by rw [isAfter])
    | advance later quiet timely task => rw [task]

/-- The background task tells the truth, has a cycle only while it is refreshing, and is to stop
only if someone asked for that. -/
structure Coherent (actions : List Action) (state : State sink) : Prop where
  honest : ∀ watcher, state.watcher = some watcher → watcher.IsHonest
  cycle : state.cycles .watcher ≠ none →
    ∃ watcher attempt, state.watcher = some watcher ∧ watcher.phase = .refreshing attempt
  asked : ∀ watcher, state.watcher = some watcher → watcher.stopRequested = true →
    .requestStop ∈ actions

namespace Coherent

variable {actions : List Action} {action : Action} {state next : State sink}

/-- A step that ends in this task, which has no cycle then. -/
theorem of_task {after : Watcher} (task : next.watcher = some after) (honest : after.IsHonest)
    (cycle : next.cycles .watcher = none)
    (asked : after.stopRequested = true → .requestStop ∈ actions) :
    Coherent (actions ++ [action]) next := by
  refine ⟨fun watcher present => ?_, fun running => absurd cycle running,
    fun watcher present stop => ?_⟩
  · rw [task] at present
    cases present
    exact honest
  · rw [task] at present
    cases present
    exact List.mem_append_left _ (asked stop)

/-- Outside of its cycles the background task has none. -/
theorem idle (coherent : Coherent actions state) {watcher : Watcher}
    (present : state.watcher = some watcher)
    (phase : ∀ attempt, watcher.phase ≠ .refreshing attempt) : state.cycles .watcher = none := by
  by_contra running
  obtain ⟨other, attempt, same, refreshing⟩ := coherent.cycle running
  rw [present] at same
  cases same
  exact phase attempt refreshing

/-- A cycle of the background task that ends does so while it is refreshing. -/
theorem watcherAfter_eq (coherent : Coherent actions state) (running : state.cycles .watcher ≠ none)
    (result : Except LoadError Unit) : ∃ watcher attempt, state.watcher = some watcher ∧
      watcher.phase = .refreshing attempt ∧ state.watcherAfter .watcher result =
        some (watcher.afterCycle state.settings state.now attempt result) := by
  obtain ⟨watcher, attempt, present, phase⟩ := coherent.cycle running
  exact ⟨watcher, attempt, present, phase, State.watcherAfter_of_refreshing present phase result⟩

theorem of_result (coherent : Coherent actions state) (running : state.cycles .watcher ≠ none)
    {result : Except LoadError Unit} (task : next.watcher = state.watcherAfter .watcher result)
    (cycle : next.cycles .watcher = none) : Coherent (actions ++ [action]) next := by
  obtain ⟨watcher, attempt, present, phase, after⟩ := coherent.watcherAfter_eq running result
  refine of_task (task.trans after) ?_ cycle fun stop => ?_
  · exact watcher.afterCycle_isHonest _ _ (coherent.honest watcher present) phase result
  · rw [watcher.afterCycle_stopRequested] at stop
    exact coherent.asked watcher present stop

theorem start (settings : LoaderSettings) (sinks : Target → sink) :
    Coherent [] (State.start settings sinks) := by
  refine ⟨fun watcher present => ?_, fun running => absurd rfl running,
    fun watcher present stop => ?_⟩
  · unfold State.start at present
    split at present
    · cases present
      exact fun told shown => Option.some.inj shown
    · cases present
  · unfold State.start at present
    split at present
    · cases present
      cases stop
    · cases present

theorem step (coherent : Coherent actions state) (step : WatchStep state action next) :
    Coherent (actions ++ [action]) next := by
  cases step with
  | apart noCommit task now cycle log =>
    refine ⟨fun watcher present => ?_, fun running => ?_, fun watcher present stop => ?_⟩
    · obtain ⟨old, before, same⟩ := SameTask.exists_before task present
      intro told shown
      rw [same.published]
      exact coherent.honest old before told (same.phase ▸ shown)
    · have refreshes : ∃ watcher attempt, state.watcher = some watcher ∧
          watcher.phase = .refreshing attempt := by
        rcases cycle running with before | refreshes
        · exact coherent.cycle before
        · exact refreshes
      obtain ⟨old, attempt, before, phase⟩ := refreshes
      obtain ⟨new, after, same⟩ := SameTask.exists_after task before
      exact ⟨new, attempt, after, same.phase.trans phase⟩
    · obtain ⟨old, before, same⟩ := SameTask.exists_before task present
      rcases same.asked stop with earlier | now
      · exact List.mem_append_left _ (coherent.asked old before earlier)
      · rw [now]
        exact List.mem_append_right _ (List.mem_singleton_self _)
  | @arm watcher after next present phase isAfter task now cycle log =>
    have idle : state.cycles .watcher = none := coherent.idle present (by rw [phase]; nofun)
    have told : watcher.published = .idle := coherent.honest watcher present _ (by rw [phase]; rfl)
    subst isAfter
    refine of_task task ?_ (cycle.trans idle) (coherent.asked watcher present)
    exact fun _ shown => told.trans (Option.some.inj shown)
  | @rearm watcher after alarm interval next present phase known unheard isAfter task now cycle
      log =>
    have idle : state.cycles .watcher = none := coherent.idle present (by rw [phase]; nofun)
    have told : watcher.published = .idle := coherent.honest watcher present _ (by rw [phase]; rfl)
    subst isAfter
    refine of_task task ?_ (cycle.trans idle) (coherent.asked watcher present)
    intro shown isShown
    unfold Phase.rearmed at isShown
    split at isShown
    · exact told.trans (Option.some.inj isShown)
    · cases isShown
  | @due watcher after alarm next present phase heard reached isAfter task now cycle log =>
    have idle : state.cycles .watcher = none := coherent.idle present (by rw [phase]; nofun)
    subst isAfter
    refine of_task task ?_ (cycle.trans idle) (coherent.asked watcher present)
    exact fun _ shown => Option.some.inj shown
  | @resume watcher after attempt wake next present phase reached isAfter task now cycle log =>
    have idle : state.cycles .watcher = none := coherent.idle present (by rw [phase]; nofun)
    have told : watcher.published = .refreshing :=
      coherent.honest watcher present _ (by rw [phase]; rfl)
    subst isAfter
    refine of_task task ?_ (cycle.trans idle) (coherent.asked watcher present)
    exact fun _ shown => told.trans (Option.some.inj shown)
  | failed noCommit running task now cycle log => exact coherent.of_result running task cycle
  | committed target batch running task now cycle log =>
    exact coherent.of_result running task cycle
  | brokeDown noCommit running task now cycle log =>
    refine ⟨fun watcher present => ?_, fun running => absurd cycle running,
      fun watcher present stop => ?_⟩
    · obtain ⟨old, before, rfl⟩ := Option.map_eq_some_iff.mp (task.symm.trans present)
      exact fun told shown => nomatch shown
    · obtain ⟨old, before, rfl⟩ := Option.map_eq_some_iff.mp (task.symm.trans present)
      exact List.mem_append_left _ (coherent.asked old before stop)
  | @quit watcher after left next present asked running isAfter task now cycle gaveUp log =>
    subst isAfter
    refine of_task task ?_ cycle (coherent.asked watcher present)
    exact fun _ shown => Option.some.inj shown
  | advance later quiet timely task now cycle log =>
    refine ⟨task ▸ coherent.honest, fun running => ?_, fun watcher present stop => ?_⟩
    · rw [task]
      exact coherent.cycle (cycle ▸ running)
    · exact List.mem_append_left _ (coherent.asked watcher (task ▸ present) stop)

end Coherent

/-- In every state the background task tells what it is doing, has a cycle only while it says so,
and was asked to stop only by a request. -/
theorem coherent_of_run [ConfigSink sink] {settings : LoaderSettings} {sinks : Target → sink}
    {actions : List Action} {state : State sink}
    (run : (State.start settings sinks).run? actions = some state) : Coherent actions state :=
  State.run_induction Coherent (.start settings sinks)
    (fun _ coherent move => coherent.step (.of_move move)) run

end SecretRenewal.Loader
