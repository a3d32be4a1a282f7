/-
This file says how the background task breaks down. A call or a write of its own does, or the task
does by itself, when it sets its timer anew for an interval whose end is no instant; setting the
timer at the beginning of a wait never ends like that. A background task that has broken down goes
on telling what it told before. In every other case it tells that it has ended when it has, and
only then.
-/
import SecretRenewal.Proofs.Loader.Accounts
import SecretRenewal.Proofs.Loader.Alarms
import SecretRenewal.Proofs.Loader.Waits

namespace SecretRenewal.Loader

variable {sink : Type}

/-! ### How it happens -/

/-- The background task has broken down. -/
def State.IsBroken (state : State sink) : Prop :=
  ∃ watcher reason, state.watcher = some watcher ∧ watcher.phase = .brokeDown reason

/-- A run in which no call and no write of the background task breaks down. -/
def CallsHold (actions : List Action) : Prop := ∀ action ∈ actions, action.breakage? = none

/-- An action is to set the timer anew, and the end of the interval is no instant. -/
def State.OverflowsAt (state : State sink) (action : Action) : Prop :=
  action = .rearm ∧ ∃ interval, state.interval = some interval ∧
    Clock.reaches state.now interval = false

/-- In the course of a run the timer is set anew for an interval whose end is no instant. -/
def State.Overflows [ConfigSink sink] (start : State sink) (actions : List Action) : Prop :=
  ∃ before action after state, actions = before ++ action :: after ∧
    start.run? before = some state ∧ state.OverflowsAt action

theorem Phase.rearmed_of_reaches {interval : Duration} {now : Nat}
    (reaches : Clock.reaches now interval = true) (commits : Nat) :
    Phase.rearmed interval commits now =
      .waiting ⟨now, Clock.tickAfter now interval, commits⟩ := if_pos reaches

theorem Phase.rearmed_of_overflow {interval : Duration} {now : Nat}
    (short : Clock.reaches now interval = false) (commits : Nat) :
    Phase.rearmed interval commits now = .brokeDown "overflow when adding duration to instant" :=
  if_neg (Bool.eq_false_iff.mp short)

theorem Watcher.afterCycle_ne_brokeDown (watcher : Watcher) (settings : LoaderSettings)
    (now : Nat) (attempt : UInt32) (result : Except LoadError Unit) (reason : String) :
    (watcher.afterCycle settings now attempt result).phase ≠ .brokeDown reason := by
  cases result with
  | ok done => nofun
  | error error =>
    rcases watcher.afterCycle_error settings now attempt error with
      ⟨-, after⟩ | ⟨-, -, after⟩ | ⟨-, -, after⟩ <;> rw [after] <;> nofun

section

variable {state next : State sink} {actions : List Action} {action : Action}

/-- A task that is over stays as it is. -/
theorem WatchStep.sameTask_of_over (watch : WatchStep state action next)
    (coherent : Coherent actions state) {watcher : Watcher}
    (present : state.watcher = some watcher) (isOver : watcher.phase.isRunning = false) :
    Option.Rel (SameTask action) state.watcher next.watcher := by
  have idle : state.cycles .watcher = none := by
    refine coherent.idle present fun attempt phase => ?_
    rw [phase] at isOver
    cases isOver
  have stays : ∀ other, state.watcher = some other → other.phase.isRunning ≠ true := by
    intro other isOther
    cases present.symm.trans isOther
    rw [isOver]
    nofun
  cases watch with
  | apart noCommit task now cycle log => exact task
  | arm isTask phase isAfter task now cycle log =>
    exact absurd (by rw [phase]; rfl) (stays _ isTask)
  | rearm isTask phase known unheard isAfter task now cycle log =>
    exact absurd (by rw [phase]; rfl) (stays _ isTask)
  | due isTask phase heard reached isAfter task now cycle log =>
    exact absurd (by rw [phase]; rfl) (stays _ isTask)
  | resume isTask phase reached isAfter task now cycle log =>
    exact absurd (by rw [phase]; rfl) (stays _ isTask)
  | failed noCommit running task now cycle log => exact absurd idle running
  | committed target batch running task now cycle log => exact absurd idle running
  | brokeDown noCommit running task now cycle log => exact absurd idle running
  | quit isTask asked running isAfter task now cycle gaveUp log =>
    exact absurd running (stays _ isTask)
  | advance later quiet timely task now cycle log =>
    rw [task, present]
    exact .some ⟨rfl, rfl, id, .inl⟩

/-- A background task that has broken down had done so before, or does so with this step, and it
tells what it told before. -/
theorem WatchStep.of_brokeDown (watch : WatchStep state action next)
    (coherent : Coherent actions state) {after : Watcher} {reason : String}
    (isAfter : next.watcher = some after) (broken : after.phase = .brokeDown reason) :
    ∃ before, state.watcher = some before ∧ after.published = before.published ∧
      (before.phase = .brokeDown reason ∨ before.phase.isRunning = true ∧
        (action.breakage? = some reason ∨ state.OverflowsAt action)) := by
  cases watch with
  | apart noCommit task now cycle log =>
    obtain ⟨old, present, same⟩ := SameTask.exists_before task isAfter
    exact ⟨old, present, same.published, .inl (same.phase ▸ broken)⟩
  | arm present phase isTask task now cycle log =>
    rw [isAfter] at task
    cases task
    rw [isTask] at broken
    cases broken
  | @rearm watcher _ alarm interval _ present phase known unheard isTask task now cycle log =>
    rw [isAfter] at task
    cases task
    rw [isTask] at broken
    refine ⟨watcher, present, by rw [isTask], .inr ⟨by rw [phase]; rfl, .inr ⟨rfl, ?_⟩⟩⟩
    refine ⟨interval, known, Bool.eq_false_iff.mpr fun reaches => ?_⟩
    cases (Phase.rearmed_of_reaches reaches state.commits).symm.trans broken
  | due present phase heard reached isTask task now cycle log =>
    rw [isAfter] at task
    cases task
    rw [isTask] at broken
    cases broken
  | resume present phase reached isTask task now cycle log =>
    rw [isAfter] at task
    cases task
    rw [isTask] at broken
    cases broken
  | failed noCommit running task now cycle log =>
    obtain ⟨watcher, attempt, present, phase, ended⟩ := coherent.watcherAfter_eq running _
    cases isAfter.symm.trans (task.trans ended)
    exact absurd broken (watcher.afterCycle_ne_brokeDown _ _ _ _ _)
  | committed target batch running task now cycle log =>
    obtain ⟨watcher, attempt, present, phase, ended⟩ := coherent.watcherAfter_eq running _
    cases isAfter.symm.trans (task.trans ended)
    exact absurd broken (watcher.afterCycle_ne_brokeDown _ _ _ _ _)
  | brokeDown noCommit running task now cycle log cause =>
    obtain ⟨watcher, attempt, present, phase⟩ := coherent.cycle running
    obtain ⟨old, before, rfl⟩ := Option.map_eq_some_iff.mp (task.symm.trans isAfter)
    cases present.symm.trans before
    cases broken
    exact ⟨watcher, present, rfl, .inr ⟨by rw [phase]; rfl, .inl cause⟩⟩
  | quit present asked running isTask task now cycle gaveUp log =>
    rw [isAfter] at task
    cases task
    rw [isTask] at broken
    cases broken
  | advance later quiet timely task now cycle log =>
    exact ⟨after, task ▸ isAfter, rfl, .inl broken⟩

variable [ConfigSink sink]

theorem Move.isBroken_of_breakage (move : Move state action next) {reason : String}
    (breaks : action.breakage? = some reason) : next.IsBroken := by
  have acts {party : Party} {cycle : Cycle} (active : state.activeCycle? party = some cycle)
      (own : party = .watcher) : ∃ watcher, state.watcher = some watcher := by
    subst own
    have may := (State.activeCycle?_eq_some.mp active).1
    unfold State.mayAct at may
    cases present : state.watcher with
    | none =>
      rw [present] at may
      cases may
    | some watcher => exact ⟨watcher, rfl⟩
  cases move with
  | @callBroke party cycle reason active calling =>
    cases party with
    | host number => cases breaks
    | watcher =>
      obtain ⟨watcher, present⟩ := acts active rfl
      refine ⟨{ watcher with phase := .brokeDown reason }, reason, ?_, rfl⟩
      rw [State.watcher_breakDown, State.watcherBroken, present]
      rfl
  | @writeBroke party cycle batch written reason active stage free short =>
    cases party with
    | host number => cases breaks
    | watcher =>
      obtain ⟨watcher, present⟩ := acts active rfl
      refine ⟨{ watcher with phase := .brokeDown reason }, reason, ?_, rfl⟩
      rw [State.watcher_breakDown, State.watcherBroken]
      exact congrArg (Option.map _) present
  | _ => cases breaks

theorem Move.isBroken_of_overflow (move : Move state action next)
    (overflows : state.OverflowsAt action) : next.IsBroken := by
  obtain ⟨rfl, interval, known, short⟩ := overflows
  cases move with
  | @rearm watcher alarm other active phase isKnown unheard =>
    cases known.symm.trans isKnown
    exact ⟨_, _, State.watcher_setWatcher .., Phase.rearmed_of_overflow short state.commits⟩

/-- The background task is broken after a step if it was so before, or if the step breaks it. -/
theorem Move.isBroken_iff (move : Move state action next) (coherent : Coherent actions state) :
    next.IsBroken ↔
      state.IsBroken ∨ (∃ reason, action.breakage? = some reason) ∨ state.OverflowsAt action := by
  have watch : WatchStep state action next := .of_move move
  constructor
  · rintro ⟨after, reason, isAfter, broken⟩
    obtain ⟨before, present, -, standing⟩ := watch.of_brokeDown coherent isAfter broken
    rcases standing with earlier | ⟨-, breaks | overflows⟩
    · exact .inl ⟨before, reason, present, earlier⟩
    · exact .inr (.inl ⟨reason, breaks⟩)
    · exact .inr (.inr overflows)
  · rintro (⟨before, reason, present, broken⟩ | ⟨reason, breaks⟩ | overflows)
    · have same := watch.sameTask_of_over coherent present (by rw [broken]; rfl)
      obtain ⟨after, isAfter, task⟩ := SameTask.exists_after same present
      exact ⟨after, reason, isAfter, task.phase.trans broken⟩
    · exact move.isBroken_of_breakage breaks
    · exact move.isBroken_of_overflow overflows

end

/-! ### Runs -/

section

variable [ConfigSink sink] {settings : LoaderSettings} {sinks : Target → sink}
  {actions : List Action} {state next : State sink} {action : Action}

theorem State.overflows_append_singleton {start : State sink}
    (run : start.run? actions = some state) :
    start.Overflows (actions ++ [action]) ↔ start.Overflows actions ∨ state.OverflowsAt action := by
  constructor
  · rintro ⟨before, found, after, middle, split, reaches, overflows⟩
    rcases List.eq_nil_or_concat after with rfl | ⟨earlier, last, rfl⟩
    · obtain ⟨rfl, isLast⟩ := List.append_inj' split rfl
      cases isLast
      cases run.symm.trans reaches
      exact .inr overflows
    · rw [List.concat_eq_append, ← List.cons_append, ← List.append_assoc] at split
      obtain ⟨rfl, -⟩ := List.append_inj' split rfl
      exact .inl ⟨before, found, earlier, middle, rfl, reaches, overflows⟩
  · rintro (⟨before, found, after, middle, rfl, reaches, overflows⟩ | overflows)
    · refine ⟨before, found, after ++ [action], middle, ?_, reaches, overflows⟩
      rw [List.append_assoc, List.cons_append]
    · exact ⟨actions, action, [], state, rfl, run, overflows⟩

omit [ConfigSink sink] in
theorem State.not_isBroken_start : ¬ (State.start settings sinks).IsBroken := by
  rintro ⟨watcher, reason, present, broken⟩
  unfold State.start at present
  split at present
  · cases present
    cases broken
  · cases present

/-- The background task is broken exactly if something has broken it: a call or a write of its own,
or its timer. -/
theorem isBroken_iff_of_run (run : (State.start settings sinks).run? actions = some state) :
    state.IsBroken ↔ (∃ action ∈ actions, ∃ reason, action.breakage? = some reason) ∨
      (State.start settings sinks).Overflows actions := by
  refine State.run_induction (fun actions state => state.IsBroken ↔
    (∃ action ∈ actions, ∃ reason, action.breakage? = some reason) ∨
      (State.start settings sinks).Overflows actions) ?_ ?_ run
  · refine iff_of_false State.not_isBroken_start ?_
    rintro (⟨action, member, -⟩ | ⟨before, action, after, state, split, -⟩)
    · cases member
    · exact absurd split.symm (by simp)
  · intro actions state action next run inductionHypothesis move
    rw [move.isBroken_iff (coherent_of_run run), State.overflows_append_singleton run,
      inductionHypothesis]
    simp only [List.mem_append, List.mem_singleton, or_and_right, exists_or, exists_eq_left]
    exact or_or_or_comm

/-- Whoever is told that the background task has broken down is told so of one that has. -/
theorem isBroken_of_aborted (run : (State.start settings sinks).run? actions = some state)
    {host : Nat} {text : String}
    (learnt : (host, .error (.watcherAborted text)) ∈ state.waits) : state.IsBroken := by
  refine State.run_induction (fun _ state =>
    (host, .error (.watcherAborted text)) ∈ state.waits → state.IsBroken) ?_ ?_ run learnt
  · exact fun member => absurd member List.not_mem_nil
  · intro actions state action next run inductionHypothesis move learnt
    rw [move.isBroken_iff (coherent_of_run run)]
    refine .inl ?_
    rcases move.waits_eq with same | ⟨other, outcome, more, cause⟩
    · exact inductionHypothesis (same ▸ learnt)
    · rw [more] at learnt
      rcases List.mem_append.mp learnt with earlier | now
      · exact inductionHypothesis earlier
      · cases List.mem_singleton.mp now
        rcases cause with well | ⟨watcher, present, ended⟩
        · cases well
        · have story := hasStory_of_run run watcher present
          cases phase : watcher.phase with
          | brokeDown reason => exact ⟨watcher, reason, present, phase⟩
          | ended outcome =>
            rw [phase] at story ended
            cases ended
            rcases story.outcome with ⟨-, count, error, exhausted⟩ | ⟨-, well⟩
            · cases exhausted
            · cases well
          | _ =>
            rw [phase] at ended
            cases ended

/-! ### Whose interval it is -/

/-- Another task has just committed the interval that counts. -/
def State.JustCommitted (state : State sink) : Prop :=
  ∃ commit ∈ state.commitLog, commit.party ≠ .watcher ∧ commit.time = state.now ∧
    state.interval = some commit.batch.interval

omit [ConfigSink sink] in
theorem State.JustCommitted.of_sameTerms (just : state.JustCommitted)
    (terms : SameTerms state next) (now : next.now = state.now) : next.JustCommitted := by
  obtain ⟨commit, member, foreground, time, interval⟩ := just
  exact ⟨commit, terms.log ▸ member, foreground, time.trans now.symm,
    terms.interval.trans interval⟩

theorem State.JustCommitted.of_commits {party : Party} {cycle : Cycle} {batch : Staged}
    (commits : Commits state party cycle batch next) (foreground : party ≠ .watcher)
    (now : next.now = state.now) : next.JustCommitted := by
  refine ⟨⟨state.now, party, cycle.delivery.target, batch⟩, ?_, foreground, now.symm,
    commits.interval⟩
  rw [commits.log]
  exact List.mem_append_right _ (List.mem_singleton_self _)

omit [ConfigSink sink] in
/-- A timer that is there after a step has just been set and has heard of every commit, or it was
there before. -/
theorem WatchStep.waits_before (watch : WatchStep state action next)
    (coherent : Coherent actions state) {after : Watcher} {alarm : Alarm}
    (isAfter : next.watcher = some after) (phase : after.phase = .waiting alarm) :
    (alarm.seen = state.commits ∧ ∀ party, action ≠ .commit party) ∨
      next.now = state.now ∧ action ≠ .commit .watcher ∧
        ∃ before, state.watcher = some before ∧ before.phase = .waiting alarm := by
  have notAfterCycle (running : state.cycles .watcher ≠ none) (result : Except LoadError Unit)
      (task : next.watcher = state.watcherAfter .watcher result) : False := by
    obtain ⟨watcher, attempt, present, refreshing, ended⟩ :=
      coherent.watcherAfter_eq running result
    cases isAfter.symm.trans (task.trans ended)
    rcases watcher.afterCycle_starting_or_busy state.settings state.now attempt result with
      starting | ⟨told, busy, shown⟩
    · cases starting.symm.trans phase
    · rw [phase] at shown
      exact busy (Option.some.inj shown).symm
  cases watch with
  | apart noCommit task now cycle log =>
    obtain ⟨before, present, same⟩ := SameTask.exists_before task isAfter
    exact .inr ⟨now, noCommit, before, present, same.phase.symm.trans phase⟩
  | arm present isPhase isTask task now cycle log =>
    cases isAfter.symm.trans task
    rw [isTask] at phase
    cases phase
    exact .inl ⟨rfl, nofun⟩
  | rearm present isPhase known unheard isTask task now cycle log =>
    cases isAfter.symm.trans task
    rw [isTask] at phase
    simp only [Phase.rearmed] at phase
    split at phase
    · cases phase
      exact .inl ⟨rfl, nofun⟩
    · cases phase
  | due present isPhase heard reached isTask task now cycle log =>
    cases isAfter.symm.trans task
    rw [isTask] at phase
    cases phase
  | resume present isPhase reached isTask task now cycle log =>
    cases isAfter.symm.trans task
    rw [isTask] at phase
    cases phase
  | failed noCommit running task now cycle log => exact (notAfterCycle running _ task).elim
  | committed target batch running task now cycle log =>
    exact (notAfterCycle running _ task).elim
  | brokeDown noCommit running task now cycle log =>
    obtain ⟨old, before, rfl⟩ := Option.map_eq_some_iff.mp (task.symm.trans isAfter)
    cases phase
  | quit present asked running isTask task now cycle gaveUp log =>
    cases isAfter.symm.trans task
    rw [isTask] at phase
    cases phase
  | advance later quiet timely task now cycle log =>
    exact .inl ⟨(State.waiting_of_quiet quiet (task ▸ isAfter) phase).1, nofun⟩

/-- What a timer has not heard of yet is a commit of another task at this very tick. -/
theorem justCommitted_of_run (run : (State.start settings sinks).run? actions = some state)
    {watcher : Watcher} {alarm : Alarm} (present : state.watcher = some watcher)
    (phase : watcher.phase = .waiting alarm) (unheard : alarm.seen ≠ state.commits) :
    state.JustCommitted := by
  refine State.run_induction (fun _ state => ∀ watcher alarm, state.watcher = some watcher →
    watcher.phase = .waiting alarm → alarm.seen ≠ state.commits → state.JustCommitted)
    ?_ ?_ run watcher alarm present phase unheard
  · intro watcher alarm present phase
    unfold State.start at present
    split at present
    · cases present
      cases phase
    · cases present
  · intro actions state action next run inductionHypothesis move watcher alarm present phase unheard
    have watch : WatchStep state action next := .of_move move
    have value : ValueStep state action next := .of_move move
    have before := watch.waits_before (coherent_of_run run) present phase
    by_cases commits : ∃ party, action = .commit party
    · obtain ⟨party, rfl⟩ := commits
      rcases before with ⟨-, noCommit⟩ | ⟨now, foreground, -⟩
      · exact absurd rfl (noCommit party)
      · cases value with
        | apart noCommit same => exact absurd rfl (noCommit party)
        | commit commits => exact .of_commits commits (fun same => foreground (same ▸ rfl)) now
    · have terms : SameTerms state next :=
        .of_step value move.settings_eq fun party same => commits ⟨party, same⟩
      rw [terms.commits] at unheard
      rcases before with ⟨heard, -⟩ | ⟨now, -, old, isOld, waits⟩
      · exact absurd heard unheard
      · exact (inductionHypothesis old alarm isOld waits unheard).of_sameTerms terms now

end

/-! ### Breaking down -/

variable [ConfigSink sink] {settings : LoaderSettings} {sinks : Target → sink}
  {actions : List Action} {state : State sink}

/-- Where the timer is set anew for too long an interval, another task has committed it. -/
theorem State.Overflows.exists_commit
    (overflows : (State.start settings sinks).Overflows actions)
    (run : (State.start settings sinks).run? actions = some state) :
    ∃ commit ∈ state.commitLog, commit.party ≠ .watcher ∧
      Clock.reaches commit.time commit.batch.interval = false := by
  obtain ⟨before, action, after, middle, rfl, reaches, rfl, interval, known, short⟩ := overflows
  rw [State.run?_append, reaches, Option.bind_some] at run
  have kept : middle.commitLog <+: state.commitLog := commitLog_prefix_of_run run
  obtain ⟨next, step, -⟩ := Option.bind_eq_some_iff.mp run
  cases Move.of_step? step with
  | rearm active phase isKnown unheard =>
    have present := State.watcher_of_active active
    obtain ⟨commit, member, foreground, time, isInterval⟩ :=
      justCommitted_of_run reaches present phase unheard
    cases known.symm.trans isInterval
    exact ⟨commit, kept.subset member, foreground, time ▸ short⟩

/-- A timer that is set at the beginning of a wait goes off within thirty years, whatever the
interval is. -/
theorem State.arm_within {next : State sink} (step : state.step? .arm = some next) :
    ∃ watcher alarm, next.watcher = some watcher ∧ watcher.phase = .waiting alarm ∧
      alarm.deadline ≤ next.now + Clock.farOff := by
  cases Move.of_step? step with
  | arm active phase =>
    refine ⟨_, _, State.watcher_setWatcher .., rfl, ?_⟩
    rw [State.now_setWatcher]
    exact Nat.add_le_add_left (Nat.min_le_right ..) _

/-- As long as its calls hold, the background task breaks down exactly where its timer is set anew
for an interval whose end is no instant, and only then is anyone told so. Setting the timer at the
beginning of a wait never breaks it, and neither does any interval that can be counted on from
where it was committed. -/
theorem breaks_down_only_by_overflow
    (run : (State.start settings sinks).run? actions = some state) (hold : CallsHold actions) :
    (state.IsBroken ↔ (State.start settings sinks).Overflows actions) ∧
    (∀ host text, (host, .error (.watcherAborted text)) ∈ state.waits → state.IsBroken) ∧
    ((∀ commit ∈ state.commitLog, commit.party ≠ .watcher →
      Clock.reaches commit.time commit.batch.interval = true) → ¬ state.IsBroken) ∧
    ∀ next, state.step? .arm = some next → ∃ watcher alarm, next.watcher = some watcher ∧
      watcher.phase = .waiting alarm ∧ alarm.deadline ≤ next.now + Clock.farOff := by
  have broken : state.IsBroken ↔ (State.start settings sinks).Overflows actions := by
    rw [isBroken_iff_of_run run]
    refine or_iff_right ?_
    rintro ⟨action, member, reason, breaks⟩
    rw [hold action member] at breaks
    cases breaks
  refine ⟨broken, fun _ _ => isBroken_of_aborted run, fun reach isBroken => ?_,
    fun _ => State.arm_within⟩
  obtain ⟨commit, member, foreground, short⟩ := (broken.mp isBroken).exists_commit run
  rw [reach commit member foreground] at short
  cases short

/-- While the background task waits, a task of the program loads with the longest leases there are.
The timer is set anew, and somebody waits for the end. -/
def longestLeases : List Action :=
  [.arm, .begin 0 (.direct (.own 0)), .enter (.host 0),
    .tokenReturned (.host 0) (.ok ⟨"s", Duration.longest⟩), .tokenTaken (.host 0),
    .readReturned (.host 0) (.ok { payload := [("x", .null)], lease := .longest }),
    .commit (.host 0), .rearm, .beginWait 1, .finishWait 1]

theorem callsHold_longestLeases : CallsHold longestLeases := by
  simp [CallsHold, longestLeases, Action.breakage?]

theorem run_longestLeases : ∃ state,
    (State.start oneSecret fun _ => Values.empty).run? longestLeases = some state ∧
      state.waits = [(1, .error (.watcherAborted
        (abortReason "overflow when adding duration to instant")))] := by
  have view : ((State.start oneSecret fun _ => Values.empty).run? longestLeases).map State.waits =
      some [(1, .error (.watcherAborted
        (abortReason "overflow when adding duration to instant")))] := by
    decide +kernel
  exact Option.map_eq_some_iff.mp view

theorem breaks_down_only_by_overflow_of_longestLeases : ∃ state,
    (State.start oneSecret fun _ => Values.empty).run? longestLeases = some state ∧
      CallsHold longestLeases ∧ state.IsBroken ∧
      (State.start oneSecret fun _ => Values.empty).Overflows longestLeases := by
  obtain ⟨state, run, learnt⟩ := run_longestLeases
  obtain ⟨overflows, told, -⟩ := breaks_down_only_by_overflow run callsHold_longestLeases
  have broken : state.IsBroken := told 1 _ (by rw [learnt]; exact List.mem_singleton_self _)
  exact ⟨state, run, callsHold_longestLeases, broken, overflows.mp broken⟩

/-- No call has broken down, and still the background task has, and the task that waits for its end
is told so. -/
theorem aborts_of_longestLeases : CallsHold longestLeases ∧ ∃ state,
    (State.start oneSecret fun _ => Values.empty).run? longestLeases = some state ∧
      state.waits = [(1, .error (.watcherAborted
        (abortReason "overflow when adding duration to instant")))] :=
  ⟨callsHold_longestLeases, run_longestLeases⟩

/-! ### Telling the end -/

/-- A background task that has broken down does not tell that it has ended. -/
theorem published_ne_stopped (run : (State.start settings sinks).run? actions = some state)
    {watcher : Watcher} {reason : String} (present : state.watcher = some watcher)
    (broken : watcher.phase = .brokeDown reason) : watcher.published ≠ .stopped := by
  refine State.run_induction (fun _ state => ∀ watcher, state.watcher = some watcher →
    watcher.phase = .brokeDown reason → watcher.published ≠ .stopped) ?_ ?_ run watcher present
    broken
  · intro watcher present broken
    exact absurd ⟨watcher, reason, present, broken⟩ State.not_isBroken_start
  · intro actions state action next run inductionHypothesis move watcher present broken
    have coherent : Coherent actions state := coherent_of_run run
    have watch : WatchStep state action next := .of_move move
    obtain ⟨before, isBefore, same, standing⟩ := watch.of_brokeDown coherent present broken
    rw [same]
    rcases standing with earlier | ⟨running, -⟩
    · exact inductionHypothesis before isBefore earlier
    · exact (coherent.honest before isBefore).ne_stopped running

/-- What a background task that is over does and tells is so for good. -/
theorem over_for_good (run : (State.start settings sinks).run? actions = some state)
    {watcher : Watcher} (present : state.watcher = some watcher)
    (isOver : watcher.phase.isRunning = false) {rest : List Action} {later : State sink}
    (further : state.run? rest = some later) : ∃ after, later.watcher = some after ∧
      after.phase = watcher.phase ∧ after.published = watcher.published := by
  refine State.run_induction (fun _ later => ∃ after, later.watcher = some after ∧
    after.phase = watcher.phase ∧ after.published = watcher.published) ⟨watcher, present, rfl, rfl⟩
    ?_ further
  rintro taken middle action next ran ⟨before, isBefore, phase, told⟩ move
  have whole : (State.start settings sinks).run? (actions ++ taken) = some middle := by
    rw [State.run?_append, run]
    exact ran
  have coherent : Coherent (actions ++ taken) middle := coherent_of_run whole
  have watch : WatchStep middle action next := .of_move move
  obtain ⟨after, isAfter, same⟩ := SameTask.exists_after
    (watch.sameTask_of_over coherent isBefore (phase ▸ isOver)) isBefore
  exact ⟨after, isAfter, same.phase.trans phase, same.published.trans told⟩

/-- The background task tells that it has ended exactly if it has, unless it has broken down; then
it never tells so. What breaks it is a call or a write of its own, or too long an interval that
its timer is set anew for. What it does and tells at the end is so for good. -/
theorem tells_end_unless_broken (run : (State.start settings sinks).run? actions = some state)
    {watcher : Watcher} (present : state.watcher = some watcher) :
    (watcher.published = .stopped ↔ ∃ outcome, watcher.phase = .ended outcome) ∧
    (¬ state.IsBroken ↔ (watcher.published = .stopped ↔ watcher.phase.isRunning = false)) ∧
    (state.IsBroken ↔ (∃ action ∈ actions, ∃ reason, action.breakage? = some reason) ∨
      (State.start settings sinks).Overflows actions) ∧
    (watcher.phase.isRunning = false → ∀ rest later, state.run? rest = some later →
      ∃ after, later.watcher = some after ∧ after.phase = watcher.phase ∧
        after.published = watcher.published) := by
  have honest : watcher.IsHonest := (coherent_of_run run).honest watcher present
  have stopped : watcher.published = .stopped ↔ ∃ outcome, watcher.phase = .ended outcome := by
    refine ⟨fun told => ?_, fun ⟨outcome, ended⟩ => honest _ (by rw [ended]; rfl)⟩
    cases phase : watcher.phase with
    | ended outcome => exact ⟨outcome, rfl⟩
    | brokeDown reason => exact absurd told (published_ne_stopped run present phase)
    | _ => exact absurd told (honest.ne_stopped (by rw [phase]; rfl))
  refine ⟨stopped, ?_, isBroken_iff_of_run run, fun isOver _ _ => over_for_good run present isOver⟩
  rw [stopped]
  constructor
  · intro unbroken
    cases phase : watcher.phase with
    | ended outcome => exact iff_of_true ⟨outcome, rfl⟩ rfl
    | brokeDown reason => exact absurd ⟨watcher, reason, present, phase⟩ unbroken
    | _ => exact iff_of_false nofun nofun
  · rintro same ⟨other, reason, isOther, broken⟩
    cases present.symm.trans isOther
    obtain ⟨outcome, ended⟩ := same.mpr (by rw [broken]; rfl)
    rw [broken] at ended
    cases ended

/-- A background task that is asked to stop while it waits tells so. -/
theorem tells_end_unless_broken_when_asked : ∃ state watcher,
    (State.start oneSecret fun _ => Values.empty).run? [.arm, .requestStop, .quit] = some state ∧
      state.watcher = some watcher ∧ watcher.published = .stopped ∧
      (∃ outcome, watcher.phase = .ended outcome) ∧ ¬ state.IsBroken := by
  obtain ⟨state, watcher, run, present, isOver, told⟩ : ∃ state watcher,
      (State.start oneSecret fun _ => Values.empty).run? [.arm, .requestStop, .quit] = some state ∧
        state.watcher = some watcher ∧ watcher.phase.isRunning = false ∧
        watcher.published = .stopped := ⟨_, _, rfl, rfl, rfl, rfl⟩
  obtain ⟨stopped, unbroken, -⟩ := tells_end_unless_broken run present
  exact ⟨state, watcher, run, present, told, stopped.mp told,
    unbroken.mpr (iff_of_true told isOver)⟩

/-- A background task whose call for a token has broken down is over and tells that it refreshes. -/
theorem tells_refreshing_when_broken : ∃ state watcher,
    (State.start twoSecrets fun _ => Values.empty).run?
        [.arm, .due, .launch, .enter .watcher, .callBroke .watcher "b"] = some state ∧
      state.watcher = some watcher ∧ watcher.phase.isRunning = false ∧
      watcher.published = .refreshing :=
  ⟨_, _, rfl, rfl, rfl, rfl⟩

end SecretRenewal.Loader
