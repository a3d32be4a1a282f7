/-
This file proves when the background task refreshes. Its timer counts from the beginning of the
wait, or from the latest commit of another task where that was later, and it is set for the
interval of the last commit, or for the initial delay before the first. The reason is that time
passes only while everyone waits: a wait that begins and a commit that is not yet heard of leave
the background task something to do, so the timer is set at the very tick that it counts from.
-/
import SecretRenewal.Proofs.Loader.Background

namespace SecretRenewal.Loader

/-! ### What a timer counts from -/

def toldIdle? : Nat × Event → Option Nat
  | (time, .published .idle) => some time
  | _ => none

theorem toldIdle?_of_ne (time : Nat) {told : WatcherState} (busy : told ≠ .idle) :
    toldIdle? (time, .published told) = none := by
  cases told with
  | idle => exact absurd rfl busy
  | refreshing => rfl
  | stopped => rfl

/-- When the background task last told that it waits, as it does from the start on. -/
def idleSince (log : List (Nat × Event)) : Nat := (log.filterMap toldIdle?).getLast?.getD 0

theorem idleSince_append {log more : List (Nat × Event)}
    (silent : ∀ entry ∈ more, toldIdle? entry = none) :
    idleSince (log ++ more) = idleSince log := by
  unfold idleSince
  rw [List.filterMap_append, List.filterMap_eq_nil_iff.mpr silent, List.append_nil]

theorem idleSince_append_idle (log : List (Nat × Event)) (time : Nat) :
    idleSince (log ++ [(time, .published .idle)]) = time := by
  have told : [(time, Event.published .idle)].filterMap toldIdle? = [time] := rfl
  unfold idleSince
  rw [List.filterMap_append, told, List.getLast?_concat, Option.getD_some]

/-- When a task of the program last committed, if one has. -/
def foregroundAt (commits : List Commit) : Nat :=
  ((commits.filter fun commit => commit.party ≠ .watcher).getLast?.map Commit.time).getD 0

theorem foregroundAt_append_background (commits : List Commit) {commit : Commit}
    (background : commit.party = .watcher) :
    foregroundAt (commits ++ [commit]) = foregroundAt commits := by
  unfold foregroundAt
  simp [List.filter_append, background]

theorem foregroundAt_append_foreground (commits : List Commit) {commit : Commit}
    (foreground : commit.party ≠ .watcher) :
    foregroundAt (commits ++ [commit]) = commit.time := by
  unfold foregroundAt
  simp [List.filter_append, foreground]

namespace State

variable {sink : Type} (state : State sink)

/-- What the timer counts from: the beginning of the wait, or the latest commit of another task
if that came later. -/
def anchor : Nat := max (idleSince state.watchLog) (foregroundAt state.commitLog)

/-- How long the background task waits: the interval, or the initial delay before any commit. -/
def wait : Duration := state.interval.getD state.settings.initialDelay

variable {state}

theorem not_toldIdle_of_tellings {after : Watcher} (busy : after.published ≠ .idle) :
    ∀ entry ∈ state.tellings (some after), toldIdle? entry = none := by
  intro entry member
  unfold tellings at member
  split at member
  · cases member
  · obtain ⟨told, isTold, rfl⟩ := List.mem_map.mp member
    rw [Option.toList_some, List.mem_singleton] at isTold
    subst isTold
    exact toldIdle?_of_ne _ busy

end State

/-- After a cycle the background task begins to wait, or it is busy and does not say otherwise. -/
theorem Watcher.afterCycle_starting_or_busy (watcher : Watcher) (settings : LoaderSettings)
    (now : Nat) (attempt : UInt32) (result : Except LoadError Unit) :
    (watcher.afterCycle settings now attempt result).phase = .starting ∨
      ∃ told, told ≠ .idle ∧
        (watcher.afterCycle settings now attempt result).phase.shown? = some told := by
  cases result with
  | ok done => exact .inl rfl
  | error error =>
    rcases watcher.afterCycle_error settings now attempt error with
      ⟨-, after⟩ | ⟨-, -, after⟩ | ⟨-, -, after⟩
    · exact .inr ⟨.refreshing, nofun, by rw [after]; rfl⟩
    · exact .inr ⟨.stopped, nofun, by rw [after]; rfl⟩
    · exact .inl (by rw [after])

/-! ### The timer is on time -/

variable {sink : Type}

/-- A timer that is set when it should be and for as long as it should be. A wait that is begun is
cut off after thirty years; one that is begun anew after a commit is not. -/
def Alarm.IsSet (alarm : Alarm) (state : State sink) : Prop :=
  state.now ≤ alarm.deadline ∧
    (alarm.deadline = Clock.wakeTime state.anchor state.wait ∨
      alarm.deadline = Clock.tickAfter state.anchor state.wait)

/-- Where the background task is in its schedule. -/
structure OnTime (state : State sink) : Prop where
  begun : idleSince state.watchLog ≤ state.now
  past : foregroundAt state.commitLog ≤ state.now
  starting : ∀ watcher, state.watcher = some watcher → watcher.phase = .starting →
    idleSince state.watchLog = state.now
  seen : ∀ watcher alarm, state.watcher = some watcher → watcher.phase = .waiting alarm →
    alarm.seen ≤ state.commits
  heard : ∀ watcher alarm, state.watcher = some watcher → watcher.phase = .waiting alarm →
    alarm.seen = state.commits → alarm.IsSet state
  unheard : ∀ watcher alarm, state.watcher = some watcher → watcher.phase = .waiting alarm →
    alarm.seen ≠ state.commits → state.anchor = state.now ∧ state.interval ≠ none

/-- The terms of the schedule: the interval, the commits, and the settings. -/
structure SameTerms (state next : State sink) : Prop where
  settings : next.settings = state.settings
  interval : next.interval = state.interval
  commits : next.commits = state.commits
  log : next.commitLog = state.commitLog

theorem SameTerms.wait_eq {state next : State sink} (same : SameTerms state next) :
    next.wait = state.wait := by
  unfold State.wait
  rw [same.interval, same.settings]

theorem SameTerms.anchor_eq {state next : State sink} (same : SameTerms state next)
    (log : next.watchLog = state.watchLog) : next.anchor = state.anchor := by
  unfold State.anchor
  rw [log, same.log]

theorem SameTerms.of_step [ConfigSink sink] {state next : State sink} {action : Action}
    (step : ValueStep state action next) (settings : next.settings = state.settings)
    (noCommit : ∀ party, action ≠ .commit party) : SameTerms state next := by
  cases step with
  | apart _ same => exact ⟨settings, same.interval, same.commits, same.log⟩
  | commit commits => exact absurd rfl (noCommit _)
  | breakOff interval lastRefresh commits log => exact ⟨settings, interval, commits, log⟩

namespace OnTime

variable {state next : State sink} {actions : List Action} {action : Action}

/-- A background task that neither begins to wait nor waits. -/
theorem of_busy (onTime : OnTime state) (now : next.now = state.now)
    (past : foregroundAt next.commitLog ≤ next.now)
    (log : idleSince next.watchLog = idleSince state.watchLog)
    (busy : ∀ watcher, next.watcher = some watcher → watcher.phase.shown? ≠ some .idle) :
    OnTime next where
  begun := by
    rw [log, now]
    exact onTime.begun
  past := past
  starting watcher present phase := absurd (by rw [phase]; rfl) (busy watcher present)
  seen watcher alarm present phase := absurd (by rw [phase]; rfl) (busy watcher present)
  heard watcher alarm present phase := absurd (by rw [phase]; rfl) (busy watcher present)
  unheard watcher alarm present phase := absurd (by rw [phase]; rfl) (busy watcher present)

/-- A background task that begins to wait. -/
theorem of_starting (now : next.now = state.now)
    (past : foregroundAt next.commitLog ≤ next.now)
    (log : idleSince next.watchLog = state.now)
    (starting : ∀ watcher, next.watcher = some watcher → watcher.phase = .starting) :
    OnTime next where
  begun := Nat.le_of_eq (log.trans now.symm)
  past := past
  starting watcher present phase := log.trans now.symm
  seen watcher alarm present phase := by
    rw [starting watcher present] at phase
    cases phase
  heard watcher alarm present phase := by
    rw [starting watcher present] at phase
    cases phase
  unheard watcher alarm present phase := by
    rw [starting watcher present] at phase
    cases phase

/-- A background task that has just set its timer. -/
theorem of_set (onTime : OnTime state) (now : next.now = state.now) (terms : SameTerms state next)
    (log : next.watchLog = state.watchLog) {after : Watcher} {alarm : Alarm}
    (task : next.watcher = some after) (phase : after.phase = .waiting alarm)
    (seen : alarm.seen = state.commits) (isSet : alarm.IsSet next) : OnTime next where
  begun := by
    rw [log, now]
    exact onTime.begun
  past := by
    rw [terms.log, now]
    exact onTime.past
  starting watcher present isStarting := by
    rw [task] at present
    cases present
    rw [phase] at isStarting
    cases isStarting
  seen watcher other present isWaiting := by
    rw [task] at present
    cases present
    rw [phase] at isWaiting
    cases isWaiting
    rw [terms.commits]
    exact Nat.le_of_eq seen
  heard watcher other present isWaiting _ := by
    rw [task] at present
    cases present
    rw [phase] at isWaiting
    cases isWaiting
    exact isSet
  unheard watcher other present isWaiting deaf := by
    rw [task] at present
    cases present
    rw [phase] at isWaiting
    cases isWaiting
    exact absurd (seen.trans terms.commits.symm) deaf

/-- Nothing has changed but the time, which has not got past the timer. -/
theorem of_sameTerms (onTime : OnTime state) (terms : SameTerms state next)
    (task : Option.Rel (SameTask action) state.watcher next.watcher)
    (now : next.now = state.now) (log : next.watchLog = state.watchLog) : OnTime next where
  begun := by
    rw [log, now]
    exact onTime.begun
  past := by
    rw [terms.log, now]
    exact onTime.past
  starting watcher present phase := by
    obtain ⟨old, before, same⟩ := SameTask.exists_before task present
    rw [log, now]
    exact onTime.starting old before (same.phase ▸ phase)
  seen watcher alarm present phase := by
    obtain ⟨old, before, same⟩ := SameTask.exists_before task present
    rw [terms.commits]
    exact onTime.seen old alarm before (same.phase ▸ phase)
  heard watcher alarm present phase heard := by
    obtain ⟨old, before, same⟩ := SameTask.exists_before task present
    rw [terms.commits] at heard
    unfold Alarm.IsSet
    rw [now, terms.anchor_eq log, terms.wait_eq]
    exact onTime.heard old alarm before (same.phase ▸ phase) heard
  unheard watcher alarm present phase unheard := by
    obtain ⟨old, before, same⟩ := SameTask.exists_before task present
    rw [terms.commits] at unheard
    rw [now, terms.anchor_eq log, terms.interval]
    exact onTime.unheard old alarm before (same.phase ▸ phase) unheard

/-- Another task commits: whatever timer there is has not heard of it yet. -/
theorem of_foreground [ConfigSink sink] (onTime : OnTime state) {party : Party} {cycle : Cycle}
    {batch : Staged} (commits : Commits state party cycle batch next)
    (foreground : party ≠ .watcher)
    (task : Option.Rel (SameTask action) state.watcher next.watcher)
    (now : next.now = state.now) (log : next.watchLog = state.watchLog) : OnTime next := by
  have last : foregroundAt next.commitLog = next.now := by
    rw [commits.log, now]
    exact foregroundAt_append_foreground state.commitLog foreground
  have older : ∀ watcher alarm, next.watcher = some watcher → watcher.phase = .waiting alarm →
      alarm.seen < next.commits := by
    intro watcher alarm present phase
    obtain ⟨old, before, same⟩ := SameTask.exists_before task present
    rw [commits.commits]
    exact Nat.lt_succ_of_le (onTime.seen old alarm before (same.phase ▸ phase))
  refine ⟨?_, Nat.le_of_eq last, ?_, ?_, ?_, ?_⟩
  · rw [log, now]
    exact onTime.begun
  · intro watcher present phase
    obtain ⟨old, before, same⟩ := SameTask.exists_before task present
    rw [log, now]
    exact onTime.starting old before (same.phase ▸ phase)
  · exact fun watcher alarm present phase => Nat.le_of_lt (older watcher alarm present phase)
  · intro watcher alarm present phase heard
    exact absurd heard (Nat.ne_of_lt (older watcher alarm present phase))
  · intro watcher alarm present phase unheard
    refine ⟨?_, by rw [commits.interval]; exact Option.some_ne_none _⟩
    unfold State.anchor
    rw [last, log, now]
    exact Nat.max_eq_right onTime.begun

/-- A cycle of the background task ends, and it begins to wait or is busy with something else. -/
theorem of_result (onTime : OnTime state) (coherent : Coherent actions state)
    (running : state.cycles .watcher ≠ none) {result : Except LoadError Unit}
    {made : List (Nat × Event)} (task : next.watcher = state.watcherAfter .watcher result)
    (now : next.now = state.now) (past : foregroundAt next.commitLog = foregroundAt state.commitLog)
    (silent : ∀ entry ∈ made, toldIdle? entry = none)
    (log : next.watchLog = state.watchLog ++ made ++ state.tellings next.watcher) :
    OnTime next := by
  obtain ⟨watcher, attempt, present, phase, after⟩ := coherent.watcherAfter_eq running result
  have told : watcher.published = .refreshing :=
    coherent.honest watcher present _ (by rw [phase]; rfl)
  have isPast : foregroundAt next.commitLog ≤ next.now := by
    rw [past, now]
    exact onTime.past
  have honest : (watcher.afterCycle state.settings state.now attempt result).IsHonest :=
    watcher.afterCycle_isHonest _ _ (coherent.honest watcher present) phase result
  rw [task, after] at log
  rw [after] at task
  rcases watcher.afterCycle_starting_or_busy state.settings state.now attempt result with
    starting | ⟨shown, busy, isShown⟩
  · have idle := honest .idle (by rw [starting]; rfl)
    refine of_starting now isPast ?_ fun other isOther => ?_
    · rw [log, State.tellings_of_changed present (by rw [told, idle]; nofun), idle]
      exact idleSince_append_idle _ _
    · rw [task] at isOther
      cases isOther
      exact starting
  · have unchanged : idleSince next.watchLog = idleSince state.watchLog := by
      rw [log, List.append_assoc]
      refine idleSince_append fun entry member => ?_
      rcases List.mem_append.mp member with isMade | isTold
      · exact silent entry isMade
      · exact State.not_toldIdle_of_tellings (by rw [honest shown isShown]; exact busy) entry isTold
    refine onTime.of_busy now isPast unchanged fun other isOther => ?_
    rw [task] at isOther
    cases isOther
    rw [isShown]
    exact fun same => busy (Option.some.inj same)

/-- A background task that turns to something else than waiting, and says nothing of waiting. -/
theorem of_turned (onTime : OnTime state) (terms : SameTerms state next)
    (now : next.now = state.now) {made : List (Nat × Event)}
    (log : next.watchLog = state.watchLog ++ made)
    (silent : ∀ entry ∈ made, toldIdle? entry = none)
    (busy : ∀ watcher, next.watcher = some watcher → watcher.phase.shown? ≠ some .idle) :
    OnTime next := by
  refine onTime.of_busy now ?_ ?_ busy
  · rw [terms.log, now]
    exact onTime.past
  · rw [log, idleSince_append silent]

theorem not_idle_of_task {after : Watcher} (task : next.watcher = some after)
    (busy : after.phase.shown? ≠ some .idle) :
    ∀ watcher, next.watcher = some watcher → watcher.phase.shown? ≠ some .idle := by
  intro watcher present
  rw [task] at present
  cases present
  exact busy

/-- The background task sets its timer as soon as it begins to wait. -/
theorem of_arm (onTime : OnTime state) (terms : SameTerms state next) {watcher : Watcher}
    (present : state.watcher = some watcher) (phase : watcher.phase = .starting)
    (task : next.watcher = some { watcher with
      phase := .waiting (Alarm.armed state.settings state.interval state.commits state.now) })
    (now : next.now = state.now) (log : next.watchLog = state.watchLog) : OnTime next := by
  have fresh : state.anchor = state.now := by
    unfold State.anchor
    rw [onTime.starting watcher present phase]
    exact Nat.max_eq_left onTime.past
  refine onTime.of_set now terms log task rfl rfl ⟨?_, .inl ?_⟩
  · rw [now]
    exact Clock.le_wakeTime ..
  · rw [terms.anchor_eq log, fresh, terms.wait_eq]
    rfl

/-- The background task sets its timer anew after a commit, or breaks down over it. -/
theorem of_rearm (onTime : OnTime state) (terms : SameTerms state next) {watcher : Watcher}
    {alarm : Alarm} {interval : Duration} (present : state.watcher = some watcher)
    (phase : watcher.phase = .waiting alarm) (known : state.interval = some interval)
    (unheard : alarm.seen ≠ state.commits)
    (task : next.watcher =
      some { watcher with phase := Phase.rearmed interval state.commits state.now })
    (now : next.now = state.now) (log : next.watchLog = state.watchLog) : OnTime next := by
  obtain ⟨fresh, -⟩ := onTime.unheard watcher alarm present phase unheard
  by_cases reaches : Clock.reaches state.now interval = true
  · have waits : Phase.rearmed interval state.commits state.now =
        .waiting ⟨state.now, Clock.tickAfter state.now interval, state.commits⟩ := if_pos reaches
    refine onTime.of_set now terms log task waits rfl ⟨?_, .inr ?_⟩
    · rw [now]
      exact Nat.le_add_right ..
    · rw [terms.anchor_eq log, fresh, terms.wait_eq, State.wait, known]
      rfl
  · have broken : Phase.rearmed interval state.commits state.now =
        .brokeDown "overflow when adding duration to instant" := if_neg reaches
    refine onTime.of_turned terms now (log.trans (List.append_nil _).symm) nofun ?_
    exact not_idle_of_task task (by rw [broken]; exact nofun)

/-- Time passes, though not beyond the timer, and only when there is nothing left to do. -/
theorem of_advance (onTime : OnTime state) (terms : SameTerms state next) {time : Nat}
    (later : state.now < time) (quiet : state.quiet = true)
    (timely : ∀ wake, state.wake? = some wake → time ≤ wake) (task : next.watcher = state.watcher)
    (now : next.now = time) (log : next.watchLog = state.watchLog) : OnTime next := by
  refine ⟨?_, ?_, ?_, ?_, ?_, ?_⟩
  · rw [log, now]
    exact Nat.le_trans onTime.begun (Nat.le_of_lt later)
  · rw [terms.log, now]
    exact Nat.le_trans onTime.past (Nat.le_of_lt later)
  · intro watcher present phase
    exact absurd phase (State.not_starting_of_quiet quiet (task ▸ present))
  · intro watcher alarm present phase
    rw [terms.commits]
    exact onTime.seen watcher alarm (task ▸ present) phase
  · intro watcher alarm present phase heard
    rw [task] at present
    rw [terms.commits] at heard
    obtain ⟨-, isSet⟩ := onTime.heard watcher alarm present phase heard
    refine ⟨?_, ?_⟩
    · rw [now]
      exact timely alarm.deadline (by rw [State.wake?_eq present, phase]; rfl)
    · rwa [terms.anchor_eq log, terms.wait_eq]
  · intro watcher alarm present phase unheard
    rw [terms.commits] at unheard
    exact absurd (State.waiting_of_quiet quiet (task ▸ present) phase).1 unheard

variable [ConfigSink sink]

/-- What another task does leaves the timer where it is, and a commit of its own sets the schedule
anew. -/
theorem of_apart (onTime : OnTime state) (value : ValueStep state action next)
    (settings : next.settings = state.settings) (noCommit : action ≠ .commit .watcher)
    (task : Option.Rel (SameTask action) state.watcher next.watcher)
    (now : next.now = state.now) (log : next.watchLog = state.watchLog) : OnTime next := by
  cases value with
  | apart noCommit same =>
    exact onTime.of_sameTerms ⟨settings, same.interval, same.commits, same.log⟩ task now log
  | @commit party cycle batch next commits =>
    exact onTime.of_foreground commits (fun same => noCommit (congrArg _ same)) task now log
  | breakOff interval lastRefresh commits same =>
    exact onTime.of_sameTerms ⟨settings, interval, commits, same⟩ task now log

/-- A cycle of the background task commits. -/
theorem of_committed (onTime : OnTime state) (coherent : Coherent actions state)
    {target : Target} {batch : Staged} (value : ValueStep state (.commit .watcher) next)
    (running : state.cycles .watcher ≠ none)
    (task : next.watcher = state.watcherAfter .watcher (.ok ())) (now : next.now = state.now)
    (log : next.watchLog = state.watchLog ++ [(state.now, .committed .watcher target batch),
      (state.now, .finished .watcher (.ok ()))] ++ state.tellings next.watcher) :
    OnTime next := by
  cases value with
  | apart noCommit same => exact absurd rfl (noCommit _)
  | commit commits =>
    refine onTime.of_result coherent running task now ?_ (by simp [toldIdle?]) log
    rw [commits.log]
    exact foregroundAt_append_background _ rfl

/-- Every step keeps to the schedule. -/
theorem step (onTime : OnTime state) (coherent : Coherent actions state)
    (watch : WatchStep state action next) (value : ValueStep state action next)
    (settings : next.settings = state.settings) : OnTime next := by
  have told {after : Watcher} (busy : after.published ≠ .idle) :
      ∀ entry ∈ state.tellings (some after), toldIdle? entry = none :=
    State.not_toldIdle_of_tellings busy
  cases watch with
  | apart noCommit task now cycle log =>
    exact onTime.of_apart value settings noCommit task now log
  | arm present phase isAfter task now cycle log =>
    exact onTime.of_arm (.of_step value settings nofun) present phase (isAfter ▸ task) now log
  | rearm present phase known unheard isAfter task now cycle log =>
    exact onTime.of_rearm (.of_step value settings nofun) present phase known unheard
      (isAfter ▸ task) now log
  | due present phase heard reached isAfter task now cycle log =>
    subst isAfter
    rw [List.append_assoc] at log
    refine onTime.of_turned (.of_step value settings nofun) now log ?_
      (not_idle_of_task task nofun)
    exact List.forall_mem_append.mpr ⟨told nofun, by simp [toldIdle?]⟩
  | resume present phase reached isAfter task now cycle log =>
    subst isAfter
    exact onTime.of_turned (.of_step value settings nofun) now log (by simp [toldIdle?])
      (not_idle_of_task task nofun)
  | failed noCommit running task now cycle log =>
    have terms : SameTerms state next := .of_step value settings noCommit
    exact onTime.of_result coherent running task now (by rw [terms.log]) (by simp [toldIdle?]) log
  | committed target batch running task now cycle log =>
    exact onTime.of_committed coherent value running task now log
  | brokeDown noCommit running task now cycle log =>
    refine onTime.of_turned (.of_step value settings noCommit) now log (by simp [toldIdle?]) ?_
    intro watcher present
    obtain ⟨old, before, rfl⟩ := Option.map_eq_some_iff.mp (task.symm.trans present)
    exact nofun
  | quit present asked running isAfter task now cycle gaveUp log =>
    subst isAfter
    rw [List.append_assoc] at log
    refine onTime.of_turned (.of_step value settings nofun) now log ?_
      (not_idle_of_task task nofun)
    refine List.forall_mem_append.mpr ⟨?_, told nofun⟩
    rcases gaveUp with ⟨rfl, -⟩ | ⟨rfl, -⟩
    · exact nofun
    · simp [toldIdle?]
  | advance later quiet timely task now cycle log =>
    exact onTime.of_advance (.of_step value settings nofun) later quiet timely task now log

end OnTime

theorem OnTime.start (settings : LoaderSettings) (sinks : Target → sink) :
    OnTime (State.start settings sinks) := by
  have fresh : ∀ watcher, (State.start settings sinks).watcher = some watcher →
      watcher.phase = .starting := by
    intro watcher present
    unfold State.start at present
    split at present
    · cases present
      rfl
    · cases present
  refine ⟨Nat.le_refl _, Nat.le_refl _, fun _ _ _ => rfl, ?_, ?_, ?_⟩
  · intro watcher alarm present phase
    rw [fresh watcher present] at phase
    cases phase
  · intro watcher alarm present phase
    rw [fresh watcher present] at phase
    cases phase
  · intro watcher alarm present phase
    rw [fresh watcher present] at phase
    cases phase

theorem onTime_of_run [ConfigSink sink] {settings : LoaderSettings} {sinks : Target → sink}
    {actions : List Action} {state : State sink}
    (run : (State.start settings sinks).run? actions = some state) : OnTime state :=
  State.run_induction (fun _ state => OnTime state) (.start settings sinks)
    (fun run onTime move => onTime.step (coherent_of_run run) (.of_move move) (.of_move move)
      move.settings_eq) run

/-! ### What can happen at a tick -/

section

variable [ConfigSink sink] {state : State sink} {watcher : Watcher} {alarm : Alarm}

/-- Time does not pass while the timer is to be set anew or goes off. -/
theorem State.no_advance (present : state.watcher = some watcher)
    (phase : watcher.phase = .waiting alarm)
    (busy : alarm.seen = state.commits → alarm.deadline ≤ state.now) (time : Nat) :
    state.step? (.advance time) = none := by
  refine State.no_advance_of_busy fun quiet => ?_
  obtain ⟨heard, early⟩ := State.waiting_of_quiet quiet present phase
  exact absurd (busy heard) (Nat.not_le_of_lt early)

theorem State.no_due (present : state.watcher = some watcher)
    (phase : watcher.phase = .waiting alarm) (unheard : alarm.seen ≠ state.commits) :
    state.step? .due = none := by
  by_contra goesOff
  obtain ⟨next, step⟩ := Option.ne_none_iff_exists'.mp goesOff
  cases Move.of_step? step with
  | due active isWaiting heard reached =>
    rw [State.watcher_of_active active] at present
    cases present
    rw [phase] at isWaiting
    cases isWaiting
    exact unheard heard

end

/-! ### The schedule -/

/-- The background task keeps to its schedule in a state and with every step from there. -/
structure KeepsSchedule [ConfigSink sink] (state : State sink) : Prop where
  /-- A timer that has heard of every commit goes off when the wait is over. -/
  deadline : ∀ watcher alarm, state.watcher = some watcher → watcher.phase = .waiting alarm →
    alarm.seen = state.commits → alarm.IsSet state ∧
      (state.wait.millisUp ≤ Clock.farOff →
        alarm.deadline = Clock.tickAfter state.anchor state.wait)
  /-- It turns from waiting to refreshing at that tick and never at another. -/
  begins : ∀ action next before after, state.step? action = some next →
    state.watcher = some before → next.watcher = some after →
    before.published ≠ .refreshing → after.published = .refreshing →
    ∃ alarm, before.phase = .waiting alarm ∧ alarm.seen = state.commits ∧
      alarm.deadline = state.now
  /-- The clock does not go on from that tick before it has done so. -/
  goesOff : ∀ watcher alarm, state.watcher = some watcher → watcher.phase = .waiting alarm →
    alarm.seen = state.commits → alarm.deadline = state.now →
    (∀ time, state.step? (.advance time) = none) ∧
      (watcher.stopRequested = false → ∃ next after, state.step? .due = some next ∧
        next.watcher = some after ∧ after.published = .refreshing)
  /-- Cycles of others do not move the timer, and only a commit is something to hear of. -/
  stays : ∀ action next watcher alarm, state.step? action = some next →
    state.watcher = some watcher → watcher.phase = .waiting alarm →
    action = .due ∨ action = .quit ∨ action = .rearm ∧ alarm.seen ≠ state.commits ∨
      ∃ after, next.watcher = some after ∧ after.phase = .waiting alarm ∧
        ((∀ host, action ≠ .commit (.host host)) → next.commits = state.commits)
  /-- After a commit of another task the timer is wrong, whatever interval was committed. -/
  commits : ∀ host next watcher alarm, state.step? (.commit (.host host)) = some next →
    state.watcher = some watcher → watcher.phase = .waiting alarm →
    ∃ after, next.watcher = some after ∧ after.phase = .waiting alarm ∧
      alarm.seen ≠ next.commits ∧ next.anchor = next.now ∧ next.interval ≠ none
  /-- A wrong timer does not go off and stops the clock until it is set anew. -/
  rearms : ∀ watcher alarm, state.watcher = some watcher → watcher.phase = .waiting alarm →
    alarm.seen ≠ state.commits →
    state.step? .due = none ∧ (∀ time, state.step? (.advance time) = none) ∧
      (watcher.stopRequested = false → Clock.reaches state.now state.wait = true →
        ∃ next after, state.step? .rearm = some next ∧ next.watcher = some after ∧
          after.phase =
            .waiting ⟨state.now, Clock.tickAfter state.now state.wait, state.commits⟩)
  /-- However a round of cycles ends, the next wait counts from there, and a round that was of no
  avail leaves the interval as it was. -/
  returns : ∀ action next before after, state.step? action = some next →
    state.watcher = some before → next.watcher = some after →
    before.published = .refreshing → after.published = .idle →
    next.now = state.now ∧ next.anchor = state.now ∧
      (∀ time, next.step? (.advance time) = none) ∧
      (action ≠ .commit .watcher → next.interval = state.interval)

section

variable {actions : List Action} {action : Action} {state next : State sink}
  {before after : Watcher}

theorem OnTime.begins_at_deadline (onTime : OnTime state) (coherent : Coherent actions state)
    (watch : WatchStep state action next) (isBefore : state.watcher = some before)
    (isAfter : next.watcher = some after) (waits : before.published ≠ .refreshing)
    (refreshes : after.published = .refreshing) :
    ∃ alarm, before.phase = .waiting alarm ∧ alarm.seen = state.commits ∧
      alarm.deadline = state.now := by
  rcases watch.published_eq_or isBefore isAfter with
    same | ⟨alarm, phase, heard, reached, -⟩ | ⟨running, -⟩ | stopped
  · exact absurd (same.symm.trans refreshes) waits
  · refine ⟨alarm, phase, heard, Nat.le_antisymm reached ?_⟩
    exact (onTime.heard before alarm isBefore phase heard).1
  · obtain ⟨other, attempt, present, phase⟩ := coherent.cycle running
    rw [isBefore] at present
    cases present
    exact absurd (coherent.honest before isBefore _ (by rw [phase]; rfl)) waits
  · rw [refreshes] at stopped
    cases stopped

variable [ConfigSink sink]

theorem OnTime.returns_to_wait (onTime : OnTime state) (coherent : Coherent actions state)
    (watch : WatchStep state action next) (value : ValueStep state action next)
    (settings : next.settings = state.settings) (isBefore : state.watcher = some before)
    (isAfter : next.watcher = some after) (refreshes : before.published = .refreshing)
    (idle : after.published = .idle) :
    next.now = state.now ∧ next.anchor = state.now ∧
      (∀ time, next.step? (.advance time) = none) ∧
      (action ≠ .commit .watcher → next.interval = state.interval) := by
  rcases watch.published_eq_or isBefore isAfter with
    same | ⟨alarm, -, -, -, told⟩ | ⟨running, now, cause, result, task⟩ | stopped
  · rw [refreshes, idle] at same
    cases same
  · rw [idle] at told
    cases told
  · have onTimeNext : OnTime next := onTime.step coherent watch value settings
    obtain ⟨watcher, attempt, present, phase, ended⟩ := coherent.watcherAfter_eq running result
    have isEnded : after = watcher.afterCycle state.settings state.now attempt result :=
      Option.some.inj (isAfter.symm.trans (task.trans ended))
    have honest : after.IsHonest := by
      rw [isEnded]
      exact watcher.afterCycle_isHonest _ _ (coherent.honest watcher present) phase result
    have starting : after.phase = .starting := by
      rcases watcher.afterCycle_starting_or_busy state.settings state.now attempt result with
        starting | ⟨told, busy, shown⟩
      · rw [isEnded, starting]
      · exact absurd ((honest told (isEnded ▸ shown)).symm.trans idle) busy
    have fresh := onTimeNext.starting after isAfter starting
    refine ⟨now, ?_, fun time => ?_, fun failed => ?_⟩
    · unfold State.anchor
      rw [fresh, Nat.max_eq_left onTimeNext.past, now]
    · exact State.no_advance_of_busy fun quiet =>
        State.not_starting_of_quiet quiet isAfter starting
    · rcases cause with noCommit | commits
      · exact (SameTerms.of_step value settings noCommit).interval
      · exact absurd commits failed
  · rw [idle] at stopped
    cases stopped

theorem Coherent.waiting_stays (coherent : Coherent actions state)
    (watch : WatchStep state action next) (value : ValueStep state action next)
    (settings : next.settings = state.settings) (isBefore : state.watcher = some before)
    {alarm : Alarm} (phase : before.phase = .waiting alarm) :
    action = .due ∨ action = .quit ∨ action = .rearm ∧ alarm.seen ≠ state.commits ∨
      ∃ after, next.watcher = some after ∧ after.phase = .waiting alarm ∧
        ((∀ host, action ≠ .commit (.host host)) → next.commits = state.commits) := by
  have idle : state.cycles .watcher = none := coherent.idle isBefore (by rw [phase]; nofun)
  cases watch with
  | apart noCommit task now cycle log =>
    obtain ⟨after, isAfter, same⟩ := SameTask.exists_after task isBefore
    refine .inr (.inr (.inr ⟨after, isAfter, same.phase.trans phase, fun noForeground => ?_⟩))
    refine (SameTerms.of_step value settings fun party => ?_).commits
    cases party with
    | host number => exact noForeground number
    | watcher => exact noCommit
  | arm present isPhase isTask task now cycle log =>
    rw [isBefore] at present
    cases present
    rw [phase] at isPhase
    cases isPhase
  | rearm present isPhase known unheard isTask task now cycle log =>
    rw [isBefore] at present
    cases present
    rw [phase] at isPhase
    cases isPhase
    exact .inr (.inr (.inl ⟨rfl, unheard⟩))
  | due present isPhase heard reached isTask task now cycle log => exact .inl rfl
  | resume present isPhase reached isTask task now cycle log =>
    rw [isBefore] at present
    cases present
    rw [phase] at isPhase
    cases isPhase
  | failed noCommit running task now cycle log => exact absurd idle running
  | committed target batch running task now cycle log => exact absurd idle running
  | brokeDown noCommit running task now cycle log => exact absurd idle running
  | quit present asked running isTask task now cycle gaveUp log => exact .inr (.inl rfl)
  | advance later quiet timely task now cycle log =>
    refine .inr (.inr (.inr ⟨before, task.trans isBefore, phase, fun _ => ?_⟩))
    exact (SameTerms.of_step value settings nofun).commits

/-- A commit of another task is one that the timer has not heard of. -/
theorem OnTime.foreground_commits {host : Nat} (onTime : OnTime state)
    (coherent : Coherent actions state)
    (watch : WatchStep state (.commit (.host host)) next)
    (value : ValueStep state (.commit (.host host)) next)
    (settings : next.settings = state.settings) (isBefore : state.watcher = some before)
    {alarm : Alarm} (phase : before.phase = .waiting alarm) :
    ∃ after, next.watcher = some after ∧ after.phase = .waiting alarm ∧
      alarm.seen ≠ next.commits ∧ next.anchor = next.now ∧ next.interval ≠ none := by
  have onTimeNext : OnTime next := onTime.step coherent watch value settings
  have seen : alarm.seen ≤ state.commits := onTime.seen before alarm isBefore phase
  rcases coherent.waiting_stays watch value settings isBefore phase with
    due | quit | ⟨rearm, -⟩ | ⟨after, isAfter, waits, -⟩
  · cases due
  · cases quit
  · cases rearm
  · have unheard : alarm.seen ≠ next.commits := by
      cases value with
      | apart noCommit same => exact absurd rfl (noCommit _)
      | commit commits =>
        rw [commits.commits]
        exact Nat.ne_of_lt (Nat.lt_succ_of_le seen)
    exact ⟨after, isAfter, waits, unheard, onTimeNext.unheard after alarm isAfter waits unheard⟩

end

/-- The background task keeps to its schedule in every state that a loader gets to. -/
theorem keeps_schedule [ConfigSink sink] {settings : LoaderSettings} {sinks : Target → sink}
    {actions : List Action} {state : State sink}
    (run : (State.start settings sinks).run? actions = some state) : KeepsSchedule state := by
  have coherent : Coherent actions state := coherent_of_run run
  have onTime : OnTime state := onTime_of_run run
  refine ⟨?_, ?_, ?_, ?_, ?_, ?_, ?_⟩
  · intro watcher alarm present phase heard
    have isSet := onTime.heard watcher alarm present phase heard
    refine ⟨isSet, fun short => ?_⟩
    rcases isSet.2 with cut | whole
    · rw [cut, Clock.wakeTime_eq_tickAfter _ short]
    · exact whole
  · intro action next before after step isBefore isAfter waits refreshes
    exact onTime.begins_at_deadline coherent (.of_move (.of_step? step)) isBefore isAfter waits
      refreshes
  · intro watcher alarm present phase heard reached
    refine ⟨State.no_advance present phase fun _ => Nat.le_of_eq reached, fun free => ?_⟩
    have active := State.activeWatcher?_eq_some.mpr ⟨present, free⟩
    exact ⟨_, { watcher with phase := .refreshing 0, published := .refreshing },
      (Move.due active phase heard (Nat.le_of_eq reached)).step?_eq,
      State.watcher_setWatcher .., rfl⟩
  · intro action next watcher alarm step present phase
    have move : Move state action next := .of_step? step
    exact coherent.waiting_stays (.of_move move) (.of_move move) move.settings_eq present phase
  · intro host next watcher alarm step present phase
    have move : Move state (.commit (.host host)) next := .of_step? step
    exact onTime.foreground_commits coherent (.of_move move) (.of_move move) move.settings_eq
      present phase
  · intro watcher alarm present phase unheard
    obtain ⟨-, known⟩ := onTime.unheard watcher alarm present phase unheard
    refine ⟨State.no_due present phase unheard,
      State.no_advance present phase fun heard => absurd heard unheard, fun free reaches => ?_⟩
    have active := State.activeWatcher?_eq_some.mpr ⟨present, free⟩
    obtain ⟨interval, isInterval⟩ := Option.ne_none_iff_exists'.mp known
    have waits : state.wait = interval := by rw [State.wait, isInterval, Option.getD_some]
    rw [waits] at reaches ⊢
    refine ⟨_, _, (Move.rearm active phase isInterval unheard).step?_eq,
      State.watcher_setWatcher .., ?_⟩
    exact if_pos reaches
  · intro action next before after step isBefore isAfter refreshes idle
    have move : Move state action next := .of_step? step
    exact onTime.returns_to_wait coherent (.of_move move) (.of_move move) move.settings_eq
      isBefore isAfter refreshes idle

/-- One secret, a first refresh after half a minute, and then whenever the interval is over. -/
def oneSecret : LoaderSettings where
  secrets := [⟨"a", none⟩]
  maxRetry := 1
  retryDelay := Duration.ofSeconds 1
  stopOnFailure := false
  initialDelay := Duration.ofSeconds 30
  watched := true

/-- After ten seconds of the first wait a task of the program commits an interval of three quarters
of a minute. -/
def foregroundLoad : List Action :=
  [.arm, .advance 10000, .begin 0 (.direct (.own 0)), .enter (.host 0),
    .tokenReturned (.host 0) (.ok ⟨"s", Duration.ofSeconds 60⟩), .tokenTaken (.host 0),
    .readReturned (.host 0) (.ok { payload := [("x", .null)], lease := .ofSeconds 60 }),
    .commit (.host 0), .rearm]

theorem keeps_schedule_after_foregroundLoad : ∃ state watcher,
    (State.start oneSecret fun _ => Values.empty).run? foregroundLoad = some state ∧
      state.watcher = some watcher ∧ watcher.published = .idle ∧
      watcher.phase.wake? = some 55000 ∧ state.commits = 1 ∧ KeepsSchedule state := by
  have view : ((State.start oneSecret fun _ => Values.empty).run? foregroundLoad).map
      (fun state => (state.commits, state.watcher.map fun watcher =>
        (watcher.published, watcher.phase.wake?))) = some (1, some (.idle, some 55000)) := by
    decide +kernel
  obtain ⟨state, run, seen⟩ := Option.map_eq_some_iff.mp view
  obtain ⟨commits, task⟩ := Prod.mk.inj seen
  obtain ⟨watcher, present, shown⟩ := Option.map_eq_some_iff.mp task
  obtain ⟨told, wake⟩ := Prod.mk.inj shown
  exact ⟨state, watcher, run, present, told, wake, commits, keeps_schedule run⟩

end SecretRenewal.Loader
