/-
This file proves when leases are renewed. Where nothing keeps the background task from its next
cycle, some cycle asks for a token no later than the interval after a commit: time does not get
past the timer, and while the timer is to be set or the background task is in line for its turn,
time does not pass at all. The background task gets there by itself, without an answer from
outside. The interval counts from the commit and not from the time at which the leases were
granted, so a lease is renewed before it runs out if the rest of its cycle took no longer than a
quarter of it, less one tick.
-/
import SecretRenewal.Proofs.Loader.Breakdowns
import SecretRenewal.Proofs.Loader.Leases

namespace SecretRenewal

/-- A wait is less than a tick longer than its span. -/
theorem Clock.tickAfter_lt (now : Nat) (span : Duration) :
    Clock.tickAfter now span * 1000000 < now * 1000000 + span.nanos + 1000000 := by
  unfold Clock.tickAfter Duration.millisUp
  omega

theorem Clock.wakeTime_le_tickAfter (now : Nat) (span : Duration) :
    Clock.wakeTime now span ≤ Clock.tickAfter now span :=
  Nat.add_le_add_left (Nat.min_le_left ..) now

namespace Loader

variable {sink : Type}

/-! ### Runs without disturbance -/

/-- A run with a background task that nothing keeps from its next cycle: its calls neither fail
nor break down, nobody asks it to stop, and the ends of the intervals that others commit are
instants. -/
structure Undisturbed (settings : LoaderSettings) (actions : List Action) (state : State sink) :
    Prop where
  watched : settings.watched = true
  answered : ∀ action ∈ actions, action.failure? = none
  hold : CallsHold actions
  unasked : .requestStop ∉ actions
  reach : ∀ commit ∈ state.commitLog, commit.party ≠ .watcher →
    Clock.reaches commit.time commit.batch.interval = true

/-- The background task waits for its next cycle or is about it. -/
def State.IsRenewing (state : State sink) : Prop :=
  ∃ watcher, state.watcher = some watcher ∧ watcher.stopRequested = false ∧
    (watcher.phase = .starting ∨ (∃ alarm, watcher.phase = .waiting alarm) ∨
      ∃ attempt, watcher.phase = .refreshing attempt)

section

variable [ConfigSink sink] {settings : LoaderSettings} {sinks : Target → sink}
  {actions : List Action} {state next : State sink} {action : Action}

theorem Undisturbed.before (calm : Undisturbed settings (actions ++ [action]) next)
    (move : Move state action next) : Undisturbed settings actions state where
  watched := calm.watched
  answered other member := calm.answered other (List.mem_append_left _ member)
  hold other member := calm.hold other (List.mem_append_left _ member)
  unasked member := calm.unasked (List.mem_append_left _ member)
  reach commit member := by
    have run : state.run? [action] = some next := by
      rw [State.run?, move.step?_eq]
      rfl
    exact calm.reach commit ((commitLog_prefix_of_run run).subset member)

/-- Without disturbance the background task goes from waiting to refreshing and back. -/
theorem State.IsRenewing.step (renewing : state.IsRenewing) (coherent : Coherent actions state)
    (heardOf : ∀ watcher alarm, state.watcher = some watcher → watcher.phase = .waiting alarm →
      alarm.seen ≠ state.commits → state.JustCommitted)
    (calm : Undisturbed settings (actions ++ [action]) next) (move : Move state action next) :
    next.IsRenewing := by
  have watch : WatchStep state action next := .of_move move
  have coherentNext : Coherent (actions ++ [action]) next := coherent.step watch
  have latest : action ∈ actions ++ [action] := by simp
  obtain ⟨watcher, present, free, standing⟩ := renewing
  suffices phases : ∃ after, next.watcher = some after ∧ (after.phase = .starting ∨
      (∃ alarm, after.phase = .waiting alarm) ∨ ∃ attempt, after.phase = .refreshing attempt) by
    obtain ⟨after, isAfter, isPhase⟩ := phases
    refine ⟨after, isAfter, Bool.eq_false_iff.mpr fun asked => ?_, isPhase⟩
    exact calm.unasked (coherentNext.asked after isAfter asked)
  cases watch with
  | apart noCommit task now cycle log =>
    obtain ⟨after, isAfter, same⟩ := SameTask.exists_after task present
    exact ⟨after, isAfter, by rw [same.phase]; exact standing⟩
  | arm isTask phase isAfter task now cycle log =>
    exact ⟨_, task, .inr (.inl ⟨_, by rw [isAfter]⟩)⟩
  | @rearm _ _ alarm interval _ isTask phase known unheard isAfter task now cycle log =>
    obtain ⟨commit, member, foreground, time, isInterval⟩ := heardOf _ _ isTask phase unheard
    have reaches : Clock.reaches state.now interval = true := by
      cases known.symm.trans isInterval
      exact time ▸ (calm.before move).reach commit member foreground
    exact ⟨_, task, .inr (.inl ⟨_, by rw [isAfter, Phase.rearmed_of_reaches reaches]⟩)⟩
  | due isTask phase heard reached isAfter task now cycle log =>
    exact ⟨_, task, .inr (.inr ⟨_, by rw [isAfter]⟩)⟩
  | resume isTask phase reached isAfter task now cycle log =>
    exact ⟨_, task, .inr (.inr ⟨_, by rw [isAfter]⟩)⟩
  | failed noCommit running task now cycle log cause =>
    rw [calm.answered action latest] at cause
    cases cause
  | committed target batch running task now cycle log =>
    obtain ⟨old, attempt, isOld, refreshing, ended⟩ := coherent.watcherAfter_eq running (.ok ())
    exact ⟨_, task.trans ended, .inl rfl⟩
  | brokeDown noCommit running task now cycle log cause =>
    rw [calm.hold action latest] at cause
    cases cause
  | quit isTask asked running isAfter task now cycle gaveUp log =>
    cases present.symm.trans isTask
    rw [free] at asked
    cases asked
  | advance later quiet timely task now cycle log =>
    exact ⟨watcher, task.trans present, standing⟩

theorem renewing_of_run (run : (State.start settings sinks).run? actions = some state)
    (calm : Undisturbed settings actions state) : state.IsRenewing := by
  refine State.run_induction (fun actions state => Undisturbed settings actions state →
    state.IsRenewing) (fun calm => ?_) ?_ run calm
  · exact ⟨{}, if_pos calm.watched, rfl, .inl rfl⟩
  · intro actions state action next run inductionHypothesis move calm
    exact (inductionHypothesis (calm.before move)).step (coherent_of_run run)
      (fun _ _ present phase unheard => justCommitted_of_run run present phase unheard) calm move

/-! ### On the way to the next cycle -/

omit [ConfigSink sink] in
/-- While nobody is inside, the first of those in line can come inside. -/
theorem State.exists_first (turns : OneTurn state) {watcher : Watcher}
    (present : state.watcher = some watcher) (free : watcher.stopRequested = false)
    (outside : ∀ party, ¬ state.IsInside party) {party : Party}
    (waits : state.cycles party ≠ none) : ∃ first cycle, state.turn.holder = some first ∧
      state.activeCycle? first = some cycle ∧ cycle.stage = .queued := by
  have claimed : party ∈ state.turn.claims :=
    (turns.claimed party).mpr (Option.isSome_iff_ne_none.mpr waits)
  obtain ⟨first, held⟩ : ∃ first, state.turn.holder = some first := by
    cases claims : state.turn.claims with
    | nil =>
      rw [claims] at claimed
      cases claimed
    | cons first rest => exact ⟨first, Lock.holder_of_claims turns.fair claims⟩
  have inLine : first ∈ state.turn.claims := by
    rw [Lock.claims, held]
    exact List.mem_cons_self
  obtain ⟨cycle, running⟩ := Option.isSome_iff_exists.mp ((turns.claimed first).mp inLine)
  have may : state.mayAct first = true := by
    cases first with
    | host number => rfl
    | watcher =>
      rw [State.mayAct_watcher present, free]
      rfl
  refine ⟨first, cycle, held, State.activeCycle?_eq_some.mpr ⟨may, running⟩, ?_⟩
  by_contra called
  exact outside first ⟨cycle, running, called⟩

omit [ConfigSink sink] in
/-- A party in line for its turn keeps time from passing while nobody is inside. -/
theorem State.not_quiet_of_line (turns : OneTurn state) {watcher : Watcher}
    (present : state.watcher = some watcher) (free : watcher.stopRequested = false)
    (outside : ∀ party, ¬ state.IsInside party) {party : Party}
    (waits : state.cycles party ≠ none) : state.quiet ≠ true := by
  intro quiet
  obtain ⟨first, cycle, held, active, queued⟩ :=
    State.exists_first turns present free outside waits
  have ready : state.cycleReady first = true := by
    unfold State.cycleReady
    rw [active, Option.any_some, queued]
    exact beq_iff_eq.mpr held
  unfold State.quiet at quiet
  rw [held, Option.any_some, ready] at quiet
  simp at quiet

/-- The next cycle after a commit is on its way, and no later than the interval. -/
structure State.Awaits (state : State sink) (commit : Commit) : Prop where
  outside : ∀ party, ¬ state.IsInside party
  bound : state.now ≤ Clock.tickAfter commit.time commit.batch.interval
  starting : ∀ watcher, state.watcher = some watcher → watcher.phase = .starting →
    state.now = commit.time
  heard : ∀ watcher alarm, state.watcher = some watcher → watcher.phase = .waiting alarm →
    alarm.seen = state.commits →
    alarm.deadline ≤ Clock.tickAfter commit.time commit.batch.interval
  unheard : ∀ watcher alarm, state.watcher = some watcher → watcher.phase = .waiting alarm →
    alarm.seen ≠ state.commits → state.now = commit.time

namespace State.Awaits

variable {commit : Commit}

omit [ConfigSink sink] in
/-- A background task that does not wait is bound by the interval alone. -/
theorem of_busy (outside : ∀ party, ¬ next.IsInside party)
    (bound : next.now ≤ Clock.tickAfter commit.time commit.batch.interval) {after : Watcher}
    (task : next.watcher = some after) (busy : after.phase.shown? ≠ some .idle) :
    next.Awaits commit where
  outside := outside
  bound := bound
  starting watcher present phase := by
    cases task.symm.trans present
    exact absurd (by rw [phase]; rfl) busy
  heard watcher alarm present phase := by
    cases task.symm.trans present
    exact absurd (by rw [phase]; rfl) busy
  unheard watcher alarm present phase := by
    cases task.symm.trans present
    exact absurd (by rw [phase]; rfl) busy

omit [ConfigSink sink] in
/-- A timer that has just been set for the interval. -/
theorem of_set (outside : ∀ party, ¬ next.IsInside party)
    (bound : next.now ≤ Clock.tickAfter commit.time commit.batch.interval) {after : Watcher}
    {alarm : Alarm} (task : next.watcher = some after) (phase : after.phase = .waiting alarm)
    (seen : alarm.seen = next.commits)
    (deadline : alarm.deadline ≤ Clock.tickAfter commit.time commit.batch.interval) :
    next.Awaits commit where
  outside := outside
  bound := bound
  starting watcher present starts := by
    cases task.symm.trans present
    cases phase.symm.trans starts
  heard watcher other present waits _ := by
    cases task.symm.trans present
    cases phase.symm.trans waits
    exact deadline
  unheard watcher other present waits unheard := by
    cases task.symm.trans present
    cases phase.symm.trans waits
    exact absurd seen unheard

omit [ConfigSink sink] in
/-- What goes on without a cycle leaves the next one on its way. -/
theorem step (awaits : state.Awaits commit) (turns : OneTurn state)
    (renewing : state.IsRenewing) (interval : state.interval = some commit.batch.interval)
    (answered : action.failure? = none) (hold : action.breakage? = none)
    (noCommit : ∀ party, action ≠ .commit party) (outside : ∀ party, ¬ next.IsInside party)
    (terms : SameTerms state next) (watch : WatchStep state action next) :
    next.Awaits commit := by
  have still (now : next.now = state.now) :
      next.now ≤ Clock.tickAfter commit.time commit.batch.interval := now ▸ awaits.bound
  cases watch with
  | apart _ task now cycle log =>
    refine ⟨outside, still now, fun watcher present phase => ?_,
      fun watcher alarm present phase heard => ?_, fun watcher alarm present phase unheard => ?_⟩
    · obtain ⟨old, before, same⟩ := SameTask.exists_before task present
      exact now.trans (awaits.starting old before (same.phase ▸ phase))
    · obtain ⟨old, before, same⟩ := SameTask.exists_before task present
      exact awaits.heard old alarm before (same.phase ▸ phase) (heard.trans terms.commits)
    · obtain ⟨old, before, same⟩ := SameTask.exists_before task present
      rw [terms.commits] at unheard
      exact now.trans (awaits.unheard old alarm before (same.phase ▸ phase) unheard)
  | arm present phase isAfter task now cycle log =>
    refine of_set outside (still now) task (by rw [isAfter]) terms.commits.symm ?_
    have fresh := awaits.starting _ present phase
    rw [Alarm.armed, interval, fresh]
    exact Clock.wakeTime_le_tickAfter ..
  | @rearm watcher after alarm span _ present phase known unheard isAfter task now cycle log =>
    have fresh := awaits.unheard _ _ present phase unheard
    cases known.symm.trans interval
    cases reaches : Clock.reaches state.now commit.batch.interval with
    | true =>
      refine of_set outside (still now) task
        (by rw [isAfter]; exact Phase.rearmed_of_reaches reaches _) terms.commits.symm ?_
      rw [fresh]
    | false =>
      refine of_busy outside (still now) task ?_
      rw [isAfter, Phase.rearmed_of_overflow reaches]
      nofun
  | due present phase heard reached isAfter task now cycle log =>
    exact of_busy outside (still now) task (by rw [isAfter]; nofun)
  | resume present phase reached isAfter task now cycle log =>
    exact of_busy outside (still now) task (by rw [isAfter]; nofun)
  | failed noCommit running task now cycle log cause =>
    rw [answered] at cause
    cases cause
  | committed target batch running task now cycle log => exact absurd rfl (noCommit _)
  | brokeDown noCommit running task now cycle log cause =>
    rw [hold] at cause
    cases cause
  | quit present asked running isAfter task now cycle gaveUp log =>
    exact of_busy outside (still now) task (by rw [isAfter]; nofun)
  | @advance time _ later quiet timely task now cycle log =>
    obtain ⟨watcher, present, free, starts | ⟨alarm, waits⟩ | ⟨attempt, refreshes⟩⟩ := renewing
    · exact absurd starts (State.not_starting_of_quiet quiet present)
    · obtain ⟨heard, -⟩ := State.waiting_of_quiet quiet present waits
      have deadline := awaits.heard watcher alarm present waits heard
      refine of_set outside ?_ (task.trans present) waits (heard.trans terms.commits.symm) deadline
      rw [now]
      refine Nat.le_trans (timely alarm.deadline ?_) deadline
      rw [State.wake?_eq present, waits]
      rfl
    · -- Time does not pass while the background task is about a cycle: either it has yet to get
      -- into the line, or somebody is first in it.
      refine absurd quiet ?_
      by_cases idle : state.cycles .watcher = none
      · intro quiet
        refine State.not_turned_of_quiet quiet present ?_
        unfold State.isTurnedToCycle
        rw [refreshes]
        exact Option.isNone_iff_eq_none.mpr idle
      · exact State.not_quiet_of_line turns present free awaits.outside idle

end State.Awaits

/-- A commit lets the log grow, and nothing else does. -/
theorem ValueStep.isCommit_iff (value : ValueStep state action next) :
    (∃ party, action = .commit party) ↔ next.commitLog ≠ state.commitLog := by
  cases value with
  | apart noCommit same =>
    exact iff_of_false (fun ⟨party, isCommit⟩ => noCommit party isCommit)
      fun grown => grown same.log
  | commit commits =>
    refine iff_of_true ⟨_, rfl⟩ fun same => ?_
    rw [commits.log] at same
    simp at same
  | breakOff interval lastRefresh commits log =>
    exact iff_of_false nofun fun grown => grown log

omit [ConfigSink sink] in
/-- The last of the marks is a commit only if it is the last of the commits. -/
theorem State.getLast?_commitLog {commit : Commit}
    (last : state.marks.getLast? = some (.committed commit)) :
    state.commitLog.getLast? = some commit := by
  obtain ⟨earlier, split⟩ := List.getLast?_eq_some_iff.mp last
  rw [State.commitLog_eq_filterMap, split, List.filterMap_append]
  exact List.getLast?_concat

omit [ConfigSink sink] in
theorem WatchStep.now_of_commit {party : Party} (watch : WatchStep state (.commit party) next) :
    next.now = state.now := by
  cases watch with
  | apart noCommit task now cycle log => exact now
  | failed noCommit running task now cycle log => exact now
  | committed target batch running task now cycle log => exact now
  | brokeDown noCommit running task now cycle log => exact now

/-- A commit of a cycle has the next one on its way. -/
theorem State.Awaits.of_commits {party : Party} {cycle : Cycle} {batch : Staged}
    (onTime : OnTime state) (coherent : Coherent actions state)
    (watch : WatchStep state (.commit party) next) (commits : Commits state party cycle batch next)
    (outside : ∀ party, ¬ next.IsInside party) :
    next.Awaits ⟨state.now, party, cycle.delivery.target, batch⟩ where
  outside := outside
  bound := by
    rw [watch.now_of_commit]
    exact Nat.le_add_right ..
  starting _ _ _ := watch.now_of_commit
  heard watcher alarm present phase heard := by
    -- A timer that is there was there before the commit, so it cannot have heard of it.
    rcases watch.waits_before coherent present phase with
      ⟨-, noCommit⟩ | ⟨-, -, before, isBefore, waits⟩
    · exact absurd rfl (noCommit party)
    · have seen := onTime.seen before alarm isBefore waits
      rw [heard, commits.commits] at seen
      exact absurd seen (Nat.not_succ_le_self _)
  unheard _ _ _ _ _ := watch.now_of_commit

/-- A step that marks nothing and brings nobody inside leaves the next cycle on its way. -/
theorem State.Awaits.of_unmarked {commit : Commit} (awaits : state.Awaits commit)
    (run : (State.start settings sinks).run? actions = some state)
    (calm : Undisturbed settings (actions ++ [action]) next) (move : Move state action next)
    (last : state.marks.getLast? = some (.committed commit)) (marks : next.marks = state.marks)
    (outside : ∀ party, ¬ next.IsInside party) : next.Awaits commit := by
  have value : ValueStep state action next := .of_move move
  have latest : action ∈ actions ++ [action] := by simp
  have log : next.commitLog = state.commitLog := by
    rw [State.commitLog_eq_filterMap, marks, State.commitLog_eq_filterMap]
  have noCommit : ∀ party, action ≠ .commit party := fun party isCommit =>
    value.isCommit_iff.mp ⟨party, isCommit⟩ log
  have interval : state.interval = some commit.batch.interval := by
    rw [(ledger_of_run run).interval, State.getLast?_commitLog last]
    rfl
  exact awaits.step (oneTurn_of_run run) (renewing_of_run run (calm.before move)) interval
    (calm.answered action latest) (calm.hold action latest) noCommit outside
    (.of_step value move.settings_eq noCommit) (.of_move move)

omit [ConfigSink sink] in
/-- Once the cycle that is inside has ended nobody is. -/
theorem OneTurn.outside_of_ended (turns : OneTurn state) {party : Party}
    (isInside : state.IsInside party)
    (cycles : next.cycles = Function.update state.cycles party none) (other : Party) :
    ¬ next.IsInside other := by
  rintro ⟨cycle, running, called⟩
  rw [cycles] at running
  by_cases same : other = party
  · rw [same, Function.update_self] at running
    cases running
  · rw [Function.update_of_ne same] at running
    exact same (turns.unique ⟨cycle, running, called⟩ isInside)

/-- While the last that happened about leases is a commit, the next cycle is on its way. -/
theorem awaits_of_run (run : (State.start settings sinks).run? actions = some state)
    (calm : Undisturbed settings actions state) {commit : Commit}
    (last : state.marks.getLast? = some (.committed commit)) : state.Awaits commit := by
  refine State.run_induction (fun actions state => Undisturbed settings actions state →
    ∀ commit, state.marks.getLast? = some (.committed commit) → state.Awaits commit)
    (fun _ commit last => by cases last) ?_ run calm commit last
  intro actions state action next run inductionHypothesis move calm commit last
  -- Without a new mark the last one is that of before.
  have unmarked (marks : next.marks = state.marks)
      (outside : (∀ party, ¬ state.IsInside party) → ∀ party, ¬ next.IsInside party) :
      next.Awaits commit := by
    rw [marks] at last
    have awaits := inductionHypothesis (calm.before move) commit last
    exact awaits.of_unmarked run calm move last marks (outside awaits.outside)
  cases LeaseStep.of_move move with
  | apart marks cycles =>
    refine unmarked marks fun outside party ⟨cycle, running, called⟩ => ?_
    rcases cycles party cycle running with queued | runs
    · exact called queued
    · exact outside party ⟨cycle, runs, called⟩
  | enters party cycle held marks cycles =>
    rw [marks, List.getLast?_concat] at last
    cases last
  | goesOn party cycle after lease running called marks cycles fits =>
    cases lease with
    | none =>
      exact unmarked (marks.trans (List.append_nil _)) fun outside =>
        absurd ⟨cycle, running, called⟩ (outside party)
    | some lease =>
      rw [marks, Option.toList_some, List.map_singleton, List.getLast?_concat] at last
      cases last
  | commits party cycle batch running stage marks cycles =>
    have value : ValueStep state action next := .of_move move
    have isInside : state.IsInside party := ⟨cycle, running, by rw [stage]; nofun⟩
    have grown : next.commitLog ≠ state.commitLog := by
      rw [State.commitLog_eq_filterMap, marks, List.filterMap_append,
        ← State.commitLog_eq_filterMap]
      simp [Mark.commit?]
    obtain ⟨other, rfl⟩ := value.isCommit_iff.mpr grown
    cases value with
    | apart noCommit same => exact absurd same.log grown
    | commit commits =>
      have isLast := State.getLast?_commitLog last
      rw [commits.log, List.getLast?_concat] at isLast
      cases isLast
      exact .of_commits (onTime_of_run run) (coherent_of_run run) (.of_move move) commits
        ((oneTurn_of_run run).outside_of_ended isInside cycles)

/-! ### Getting to the next cycle -/

/-- Whether an action brings the next cycle nearer: the background task sets its timer and begins a
cycle when it goes off, or the first in line asks for its token. -/
def Action.leadsOn : Action → Bool
  | .arm | .rearm | .advance _ | .due | .launch | .enter _ => true
  | _ => false

theorem Action.holds_of_leadsOn (leadsOn : action.leadsOn = true) :
    action.failure? = none ∧ action.breakage? = none := by
  cases action with
  | arm | rearm | due | launch => exact ⟨rfl, rfl⟩
  | advance time => exact ⟨rfl, rfl⟩
  | enter party => exact ⟨rfl, rfl⟩
  | _ => cases leadsOn

/-- Some such actions lead to a call for a token, which is the next that happens about leases. -/
def State.AsksAfter (state : State sink) (more : List Action) (time : Nat) : Prop :=
  ∃ later party, state.run? more = some later ∧ (∀ action ∈ more, action.leadsOn = true) ∧
    later.marks = state.marks ++ [.asked time party]

def State.CanAsk (state : State sink) : Prop := ∃ more time, state.AsksAfter more time

theorem State.CanAsk.of_move (asks : next.CanAsk) (move : Move state action next)
    (leadsOn : action.leadsOn = true) (marks : next.marks = state.marks) : state.CanAsk := by
  obtain ⟨more, time, later, party, run, allLead, isAsked⟩ := asks
  refine ⟨action :: more, time, later, party, ?_, fun other member => ?_, marks ▸ isAsked⟩
  · rw [State.run?, move.step?_eq, Option.bind_some]
    exact run
  · rcases List.mem_cons.mp member with rfl | further
    · exact leadsOn
    · exact allLead other further

theorem State.canAsk_of_line (turns : OneTurn state) {watcher : Watcher}
    (present : state.watcher = some watcher) (free : watcher.stopRequested = false)
    (outside : ∀ party, ¬ state.IsInside party) {party : Party}
    (waits : state.cycles party ≠ none) : state.CanAsk := by
  obtain ⟨first, cycle, held, active, queued⟩ :=
    State.exists_first turns present free outside waits
  have move : Move state (.enter first) _ := .enter active queued held
  have run : state.run? [.enter first] =
      some ((state.moveCycle first cycle .authenticating).note (.asked first)) := by
    rw [State.run?, move.step?_eq]
    rfl
  refine ⟨[.enter first], state.now, _, first, run, fun action member => ?_, ?_⟩
  · rw [List.mem_singleton.mp member]
    rfl
  · rw [State.marks_note, State.marks_moveCycle, State.moveCycle_eq]
    rfl

/-- Nobody has a cycle, and the background task may begin one. -/
structure Resting (state : State sink) (watcher : Watcher) : Prop where
  turns : OneTurn state
  present : state.watcher = some watcher
  free : watcher.stopRequested = false
  idle : ∀ party, state.cycles party = none

namespace Resting

variable {watcher after : Watcher} {alarm : Alarm}

omit [ConfigSink sink] in
theorem active (resting : Resting state watcher) : state.activeWatcher? = some watcher :=
  State.activeWatcher?_eq_some.mpr ⟨resting.present, resting.free⟩

theorem of_move (resting : Resting state watcher) (move : Move state action next)
    (cycles : next.cycles = state.cycles) (task : next.watcher = some after)
    (free : after.stopRequested = false) : Resting next after where
  turns := resting.turns.step (.of_move move)
  present := task
  free := free
  idle := by
    rw [cycles]
    exact resting.idle

/-- The background task has turned to a cycle, and begins it. -/
theorem canAsk_of_refreshing (resting : Resting state watcher) {attempt : UInt32}
    (phase : watcher.phase = .refreshing attempt) : state.CanAsk := by
  have move : Move state .launch (state.beginCycle .watcher .locking) :=
    .launch resting.active phase (resting.idle .watcher)
  have cycles : (state.beginCycle .watcher .locking).cycles =
      Function.update state.cycles .watcher (some { delivery := .locking }) := by
    rw [State.beginCycle_eq]
  have outside (party : Party) : ¬ (state.beginCycle .watcher .locking).IsInside party := by
    rintro ⟨cycle, running, called⟩
    rw [cycles] at running
    by_cases same : party = .watcher
    · rw [same, Function.update_self] at running
      cases running
      exact called rfl
    · rw [Function.update_of_ne same, resting.idle party] at running
      cases running
  have waits : (state.beginCycle .watcher .locking).cycles .watcher ≠ none := by
    rw [cycles, Function.update_self]
    nofun
  refine .of_move (State.canAsk_of_line (resting.turns.step (.of_move move)) resting.present
    resting.free outside waits) move rfl ?_
  rw [State.beginCycle_eq]
  rfl

/-- The timer goes off. -/
theorem canAsk_of_reached (resting : Resting state watcher) (phase : watcher.phase = .waiting alarm)
    (heard : alarm.seen = state.commits) (reached : alarm.deadline ≤ state.now) :
    state.CanAsk := by
  have move : Move state .due _ := .due resting.active phase heard reached
  have refreshing : Resting _ { watcher with phase := .refreshing 0, published := .refreshing } :=
    resting.of_move move (State.cycles_setWatcher ..) (State.watcher_setWatcher ..) resting.free
  refine .of_move (refreshing.canAsk_of_refreshing rfl) move rfl ?_
  rw [State.marks_note, State.marks_setWatcher]
  exact List.append_nil _

omit [ConfigSink sink] in
/-- Nothing keeps time from passing but a timer that is to be set anew or to go off. -/
theorem quiet_of_waiting (resting : Resting state watcher) (phase : watcher.phase = .waiting alarm)
    (heard : alarm.seen = state.commits) (early : state.now < alarm.deadline) :
    state.quiet = true := by
  have nobody : state.turn.holder = none := by
    cases held : state.turn.holder with
    | none => rfl
    | some party =>
      have claimed : party ∈ state.turn.claims := by
        rw [Lock.claims, held]
        exact List.mem_cons_self
      rw [resting.turns.claimed, resting.idle party] at claimed
      cases claimed
  have notReady : state.watcherReady = false := by
    simp [State.watcherReady, State.isTurnedToCycle, resting.present, resting.free, phase, heard,
      early]
  unfold State.quiet
  rw [nobody, notReady]
  rfl

/-- The timer knows of every commit: time passes until it goes off. -/
theorem canAsk_of_heard (resting : Resting state watcher) (phase : watcher.phase = .waiting alarm)
    (heard : alarm.seen = state.commits) : state.CanAsk := by
  by_cases reached : alarm.deadline ≤ state.now
  · exact resting.canAsk_of_reached phase heard reached
  · have early : state.now < alarm.deadline := Nat.lt_of_not_le reached
    have move : Move state (.advance alarm.deadline) { state with now := alarm.deadline } := by
      refine .advance early (resting.quiet_of_waiting phase heard early) fun wake isWake => ?_
      rw [State.wake?_eq resting.present, phase] at isWake
      cases isWake
      exact Nat.le_refl _
    have later : Resting { state with now := alarm.deadline } watcher :=
      resting.of_move move rfl resting.present resting.free
    exact .of_move (later.canAsk_of_reached phase heard (Nat.le_refl _)) move rfl rfl

/-- The background task has set its timer. -/
theorem canAsk_of_set (resting : Resting state watcher) (move : Move state action
    (state.setWatcher { watcher with phase := .waiting alarm })) (leadsOn : action.leadsOn = true)
    (heard : alarm.seen = state.commits) : state.CanAsk := by
  have waiting : Resting (state.setWatcher { watcher with phase := .waiting alarm })
      { watcher with phase := .waiting alarm } :=
    resting.of_move move (State.cycles_setWatcher ..) (State.watcher_setWatcher ..) resting.free
  refine .of_move (waiting.canAsk_of_heard rfl ?_) move leadsOn (State.marks_setWatcher ..)
  rw [State.setWatcher_eq]
  exact heard

end Resting

/-- As long as nobody is inside, what comes next about leases is that a cycle asks for its token,
and nothing from outside is needed for it. -/
theorem canAsk_of_run (run : (State.start settings sinks).run? actions = some state)
    (calm : Undisturbed settings actions state) (outside : ∀ party, ¬ state.IsInside party) :
    state.CanAsk := by
  obtain ⟨watcher, present, free, standing⟩ := renewing_of_run run calm
  by_cases line : ∃ party, state.cycles party ≠ none
  · obtain ⟨party, waits⟩ := line
    exact State.canAsk_of_line (oneTurn_of_run run) present free outside waits
  · have resting : Resting state watcher :=
      ⟨oneTurn_of_run run, present, free, fun party => not_not.mp fun waits => line ⟨party, waits⟩⟩
    rcases standing with starts | ⟨alarm, waits⟩ | ⟨attempt, refreshes⟩
    · exact resting.canAsk_of_set (.arm resting.present starts) rfl rfl
    · by_cases heard : alarm.seen = state.commits
      · exact resting.canAsk_of_heard waits heard
      · obtain ⟨commit, member, foreground, time, known⟩ :=
          justCommitted_of_run run present waits heard
        have reaches : Clock.reaches state.now commit.batch.interval = true :=
          time ▸ calm.reach commit member foreground
        have move : Move state .rearm _ := .rearm resting.active waits known heard
        rw [Phase.rearmed_of_reaches reaches] at move
        exact resting.canAsk_of_set move rfl rfl
    · exact resting.canAsk_of_refreshing refreshes

omit [ConfigSink sink] in
/-- Actions that lead on to the next cycle disturb nothing. -/
theorem Undisturbed.append (calm : Undisturbed settings actions state) {more : List Action}
    {later : State sink} (leadOn : ∀ action ∈ more, action.leadsOn = true)
    (log : later.commitLog = state.commitLog) : Undisturbed settings (actions ++ more) later where
  watched := calm.watched
  answered action member := by
    rcases List.mem_append.mp member with earlier | further
    · exact calm.answered action earlier
    · exact (Action.holds_of_leadsOn (leadOn action further)).1
  hold action member := by
    rcases List.mem_append.mp member with earlier | further
    · exact calm.hold action earlier
    · exact (Action.holds_of_leadsOn (leadOn action further)).2
  unasked member := by
    rcases List.mem_append.mp member with earlier | further
    · exact calm.unasked earlier
    · cases leadOn _ further
  reach commit member := calm.reach commit (log ▸ member)

/-! ### Renewal -/

/-- What happens after a commit is that the next cycle asks for its token, and no later than the
interval. -/
structure Commit.IsFollowedBy (commit : Commit) (mark : Mark) : Prop where
  asks : ∃ time party, mark = .asked time party
  after : commit.time ≤ mark.time
  inTime : mark.time ≤ Clock.tickAfter commit.time commit.batch.interval

omit [ConfigSink sink] in
/-- A step marks one thing at most, and while nobody is inside that is the call for a token. -/
theorem LeaseStep.marks_eq (step : LeaseStep state next) : next.marks = state.marks ∨
    ∃ mark, next.marks = state.marks ++ [mark] ∧
      ((∃ party, mark = .asked state.now party) ∨ ∃ party, state.IsInside party) := by
  cases step with
  | apart marks cycles => exact .inl marks
  | enters party cycle held marks cycles => exact .inr ⟨_, marks, .inl ⟨party, rfl⟩⟩
  | goesOn party cycle after lease running called marks cycles fits =>
    cases lease with
    | none => exact .inl (marks.trans (List.append_nil _))
    | some lease => exact .inr ⟨_, marks, .inr ⟨party, cycle, running, called⟩⟩
  | commits party cycle batch running stage marks cycles =>
    exact .inr ⟨_, marks, .inr ⟨party, cycle, running, by rw [stage]; nofun⟩⟩

/-- The first that happens about leases after a commit is that the next cycle asks for its token. -/
theorem isFollowedBy_of_run (run : (State.start settings sinks).run? actions = some state)
    (calm : Undisturbed settings actions state) {before after : List Mark} {commit : Commit}
    {mark : Mark} (split : state.marks = before ++ .committed commit :: mark :: after) :
    commit.IsFollowedBy mark := by
  refine State.run_induction (fun actions state => Undisturbed settings actions state →
    ∀ after, state.marks = before ++ .committed commit :: mark :: after →
      commit.IsFollowedBy mark) ?_ ?_ run calm after split
  · exact fun _ after split =>
      absurd split.symm (by simp [State.start, State.marks, extract])
  · intro actions state action next run inductionHypothesis move calmNext after split
    have calm : Undisturbed settings actions state := calmNext.before move
    have step : LeaseStep state next := .of_move move
    rcases step.marks_eq with marks | ⟨latest, marks, cause⟩
    · exact inductionHypothesis calm after (marks.symm.trans split)
    · rcases List.eq_nil_or_concat after with rfl | ⟨earlier, last, rfl⟩
      · -- The mark is the new one, made while the next cycle was on its way.
        rw [marks, List.append_cons before] at split
        obtain ⟨isBefore, isLatest⟩ := List.append_inj' split rfl
        cases isLatest
        have member : Mark.committed commit ∈ state.marks := by
          rw [isBefore]
          exact List.mem_append_right _ (List.mem_singleton_self _)
        have awaits : state.Awaits commit := by
          refine awaits_of_run run calm ?_
          rw [isBefore, List.getLast?_concat]
        rcases cause with ⟨party, rfl⟩ | ⟨party, isInside⟩
        · exact ⟨⟨_, party, rfl⟩, (granted_of_run run).past _ member, awaits.bound⟩
        · exact absurd isInside (awaits.outside party)
      · rw [marks, List.concat_eq_append, ← List.cons_append, ← List.cons_append,
          ← List.append_assoc] at split
        exact inductionHypothesis calm earlier (List.append_inj' split rfl).1

/-- When the next cycle after a commit asked for its token, given what has happened about leases
since the commit; if it is still to do so, it does so now at the earliest. -/
def State.nextAsk (state : State sink) (after : List Mark) : Nat :=
  (after.head?.map Mark.time).getD state.now

/-- A lease that was granted early enough before the commit of its cycle does not run out within
the interval. -/
theorem Commit.IsFor.lt_of_short {commit : Commit} {grants : List (Nat × Duration)}
    (isFor : commit.IsFor grants) {grant : Nat × Duration} (member : grant ∈ grants)
    (short : 4 * ((commit.time - grant.1 + 1) * 1000000) ≤ grant.2.nanos) {time : Nat}
    (inTime : time ≤ Clock.tickAfter commit.time commit.batch.interval) :
    time * 1000000 < grant.1 * 1000000 + grant.2.nanos := by
  obtain ⟨⟨tokenLease, leases, isLeases, isInterval⟩, past⟩ := isFor
  have isLease : grant.2 ∈ tokenLease :: leases := by
    rw [← isLeases]
    exact List.mem_map_of_mem member
  have interval : commit.batch.interval.nanos ≤ grant.2.nanos * 3 / 4 := by
    rw [isInterval]
    exact nanos_intervalFor_le isLease
  have granted := past grant member
  calc time * 1000000
    _ ≤ Clock.tickAfter commit.time commit.batch.interval * 1000000 :=
      Nat.mul_le_mul_right _ inTime
    _ < commit.time * 1000000 + commit.batch.interval.nanos + 1000000 := Clock.tickAfter_lt ..
    _ ≤ commit.time * 1000000 + grant.2.nanos * 3 / 4 + 1000000 := by omega
    _ ≤ grant.1 * 1000000 + grant.2.nanos := by omega

/-- After a commit some cycle can ask for its token in time, if none has done so yet. -/
theorem asksAfter_of_run (run : (State.start settings sinks).run? actions = some state)
    (calm : Undisturbed settings actions state) {before : List Mark} {commit : Commit}
    (split : state.marks = before ++ [.committed commit]) :
    ∃ more time, state.AsksAfter more time ∧
      time ≤ Clock.tickAfter commit.time commit.batch.interval := by
  have last : state.marks.getLast? = some (.committed commit) := by
    rw [split, List.getLast?_concat]
  obtain ⟨more, time, later, party, further, leadOn, marks⟩ :=
    canAsk_of_run run calm (awaits_of_run run calm last).outside
  have whole : (State.start settings sinks).run? (actions ++ more) = some later := by
    rw [State.run?_append, run]
    exact further
  have log : later.commitLog = state.commitLog := by
    rw [State.commitLog_eq_filterMap, marks, List.filterMap_append, State.commitLog_eq_filterMap]
    exact List.append_nil _
  have splitLater : later.marks = before ++ .committed commit :: [.asked time party] := by
    rw [marks, split, List.append_assoc]
    rfl
  exact ⟨more, time, ⟨later, party, further, leadOn, marks⟩,
    (isFollowedBy_of_run whole (calm.append leadOn log) splitLater).inTime⟩

/-- What comes of a commit, given what has happened about leases before it and since. -/
structure RenewsInTime (state : State sink) (before : List Mark) (commit : Commit)
    (after : List Mark) : Prop where
  /-- It was of the interval for the leases of its cycle. -/
  isFor : commit.IsFor (openGrants before)
  /-- The first that has happened since is that the next cycle has asked for its token. -/
  asks : ∀ mark ∈ after.head?, ∃ time party, mark = .asked time party
  /-- If it is still to ask, it can do so in time, and without an answer from outside. -/
  canAsk : after = [] → ∃ more time, state.AsksAfter more time ∧
    time ≤ Clock.tickAfter commit.time commit.batch.interval
  /-- It does not ask before the commit. -/
  later : commit.time ≤ state.nextAsk after
  /-- It asks three quarters of the shortest lease after the commit at the latest. -/
  inTime : state.nextAsk after ≤ Clock.tickAfter commit.time commit.batch.interval
  /-- A lease is renewed before it runs out if the commit came within a quarter of it, less one
  tick, from when it was granted. -/
  renews : ∀ grant ∈ openGrants before,
    4 * ((commit.time - grant.1 + 1) * 1000000) ≤ grant.2.nanos →
      state.nextAsk after * 1000000 < grant.1 * 1000000 + grant.2.nanos

/-- Where nothing keeps the background task from its next cycle, the leases of every cycle that
has committed are renewed in time, as far as the commit came soon enough. -/
theorem renews_in_time (run : (State.start settings sinks).run? actions = some state)
    (calm : Undisturbed settings actions state) (before after : List Mark) (commit : Commit)
    (split : state.marks = before ++ .committed commit :: after) :
    RenewsInTime state before commit after := by
  have granted : Granted state := granted_of_run run
  have isFor : commit.IsFor (openGrants before) := granted.commits before commit after split
  obtain ⟨asks, later, inTime⟩ : (∀ mark ∈ after.head?, ∃ time party, mark = .asked time party) ∧
      commit.time ≤ state.nextAsk after ∧
      state.nextAsk after ≤ Clock.tickAfter commit.time commit.batch.interval := by
    cases after with
    | nil =>
      have last : state.marks.getLast? = some (.committed commit) := by
        rw [split, List.getLast?_concat]
      refine ⟨nofun, granted.past (.committed commit) ?_, (awaits_of_run run calm last).bound⟩
      exact List.mem_of_getLast? last
    | cons mark rest =>
      obtain ⟨asks, later, inTime⟩ := isFollowedBy_of_run run calm split
      refine ⟨fun other isHead => ?_, later, inTime⟩
      cases isHead
      exact asks
  refine ⟨isFor, asks, ?_, later, inTime, fun grant member short =>
    isFor.lt_of_short member short inTime⟩
  rintro rfl
  exact asksAfter_of_run run calm split

/-- A cycle of the background task with two leases of a second, the first read of which takes until
some time, and the next cycle when the wait after it is over. -/
def secondLeases (read wake : Nat) : List Action :=
  [.arm, .advance 30000, .due, .launch, .enter .watcher,
    .tokenReturned .watcher (.ok ⟨"s", Duration.ofSeconds 1⟩), .tokenTaken .watcher,
    .advance read,
    .readReturned .watcher (.ok { payload := [("x", .null)], lease := .ofSeconds 1 }),
    .askSink .watcher, .commit .watcher, .arm, .advance wake, .due, .launch, .enter .watcher]

omit [ConfigSink sink] in
theorem calm_secondLeases (read wake : Nat) {commit : Commit} {before after : List Mark}
    (marks : state.marks = before ++ .committed commit :: after)
    (alone : (before ++ after).filterMap Mark.commit? = []) (own : commit.party = .watcher) :
    Undisturbed oneSecret (secondLeases read wake) state := by
  refine ⟨rfl, by simp [secondLeases, Action.failure?],
    by simp [CallsHold, secondLeases, Action.breakage?], by simp [secondLeases], ?_⟩
  intro other member foreground
  have log : state.commitLog = [commit] := by
    rw [List.filterMap_append, List.append_eq_nil_iff] at alone
    rw [State.commitLog_eq_filterMap, marks, List.filterMap_append, alone.1]
    exact congrArg (commit :: ·) alone.2
  rw [log] at member
  rw [List.mem_singleton.mp member] at foreground
  exact absurd own foreground

/-- A read of a fifth of a second leaves enough of both leases. -/
theorem renews_in_time_after_short_read : ∃ state commit,
    (State.start oneSecret fun _ => Values.empty).run? (secondLeases 30200 30950) = some state ∧
      state.marks = [.asked 30000 .watcher, .granted 30000 (.ofSeconds 1),
        .granted 30200 (.ofSeconds 1), .committed commit, .asked 30950 .watcher] ∧
      Undisturbed oneSecret (secondLeases 30200 30950) state ∧
      30950 * 1000000 < 30000 * 1000000 + (Duration.ofSeconds 1).nanos := by
  obtain ⟨state, commit, run, marks, own, time⟩ : ∃ state commit,
      (State.start oneSecret fun _ => Values.empty).run? (secondLeases 30200 30950) = some state ∧
        state.marks = [.asked 30000 .watcher, .granted 30000 (.ofSeconds 1),
          .granted 30200 (.ofSeconds 1), .committed commit, .asked 30950 .watcher] ∧
        commit.party = .watcher ∧ commit.time = 30200 := ⟨_, _, rfl, rfl, rfl, rfl⟩
  have split : state.marks = [.asked 30000 .watcher, .granted 30000 (.ofSeconds 1),
      .granted 30200 (.ofSeconds 1)] ++ .committed commit :: [.asked 30950 .watcher] := marks
  have calm := calm_secondLeases 30200 30950 split rfl own
  have renewed := (renews_in_time run calm _ _ commit split).renews (30000, .ofSeconds 1)
    List.mem_cons_self (by rw [time]; decide)
  exact ⟨state, commit, run, marks, calm, renewed⟩

/-- After a read of nearly a second the token has run out before the next cycle asks for one. -/
theorem token_runs_out_after_long_read : ∃ state commit,
    (State.start oneSecret fun _ => Values.empty).run? (secondLeases 30999 31749) = some state ∧
      state.marks = [.asked 30000 .watcher, .granted 30000 (.ofSeconds 1),
        .granted 30999 (.ofSeconds 1), .committed commit, .asked 31749 .watcher] ∧
      Undisturbed oneSecret (secondLeases 30999 31749) state ∧
      30000 * 1000000 + (Duration.ofSeconds 1).nanos < 31749 * 1000000 := by
  obtain ⟨state, commit, run, marks, own⟩ : ∃ state commit,
      (State.start oneSecret fun _ => Values.empty).run? (secondLeases 30999 31749) = some state ∧
        state.marks = [.asked 30000 .watcher, .granted 30000 (.ofSeconds 1),
          .granted 30999 (.ofSeconds 1), .committed commit, .asked 31749 .watcher] ∧
        commit.party = .watcher := ⟨_, _, rfl, rfl, rfl⟩
  have split : state.marks = [.asked 30000 .watcher, .granted 30000 (.ofSeconds 1),
      .granted 30999 (.ofSeconds 1)] ++ .committed commit :: [.asked 31749 .watcher] := marks
  exact ⟨state, commit, run, marks, calm_secondLeases 30999 31749 split rfl own, by decide⟩

end

end Loader

end SecretRenewal
