/-
This file proves that cycles are all or nothing. A step that is not a commit leaves the sinks, the
interval and the time of the last refresh alone, unless a sink breaks down under a write. A commit
writes everything that its cycle was given, sets the interval and ends the cycle, and a cycle is
there only after all of its calls have succeeded. So in every state the sinks hold what they held
at the start with the commits applied in their order, and the interval is that of the last one.
-/
import SecretRenewal.Loader.Foreground
import SecretRenewal.Proofs.Loader.Turns

namespace SecretRenewal.Loader

/-! ### The commits of a run -/

/-- A commit: when it was, whose, into which sink, and what. -/
structure Commit where
  time : Nat
  party : Party
  target : Target
  batch : Staged

def commitOf? : Nat × Event → Option Commit
  | (time, .committed party target batch) => some ⟨time, party, target, batch⟩
  | _ => none

/-- The commits so far, the oldest first. -/
def State.commitLog {sink : Type} (state : State sink) : List Commit :=
  extract commitOf? state.history

/-- What a sink holds after some commits, of which those into other sinks are none of its
business. -/
def contentsAfter {sink : Type} [ConfigSink sink] (target : Target) (contents : sink)
    (commits : List Commit) : sink :=
  commits.foldl (fun contents commit =>
    if commit.target = target then ConfigSink.setAll contents commit.batch.entries else contents)
    contents

/-- A commit of a cycle whose calls have all succeeded, the call for a token and a read for every
secret, and that writes exactly what they returned. -/
def Commit.IsEarned (secrets : List SecretDescriptor) (actions : List Action) (commit : Commit) :
    Prop :=
  ∃ before after auth values, actions = before ++ .commit commit.party :: after ∧
    secrets.length = values.length ∧
    answersOf commit.party before = goodAnswers auth values ∧
    commit.batch = Staged.gathered secrets auth values

/-- A run in which no sink breaks down under a write. -/
def SinksHold (actions : List Action) : Prop :=
  ∀ party written reason, Action.writeBroke party written reason ∉ actions

theorem SinksHold.of_append_singleton {actions : List Action} {action : Action}
    (hold : SinksHold (actions ++ [action])) :
    SinksHold actions ∧ ∀ party written reason, action ≠ .writeBroke party written reason := by
  refine ⟨fun party written reason member => ?_, fun party written reason same => ?_⟩
  · exact hold party written reason (List.mem_append_left _ member)
  · exact hold party written reason (by rw [same]; exact List.mem_append_right _ (by simp))

/-- A further commit writes its batch into its own sink. -/
theorem contentsAfter_append_singleton {sink : Type} [ConfigSink sink] (target : Target)
    (contents : sink) (commits : List Commit) (commit : Commit) :
    contentsAfter target contents (commits ++ [commit]) =
      if commit.target = target then
        ConfigSink.setAll (contentsAfter target contents commits) commit.batch.entries
      else contentsAfter target contents commits := by
  unfold contentsAfter
  rw [List.foldl_append]
  rfl

/-- What was earned stays so when the run goes on. -/
theorem Commit.IsEarned.later {secrets : List SecretDescriptor} {actions : List Action}
    {commit : Commit} (earned : commit.IsEarned secrets actions) (action : Action) :
    commit.IsEarned secrets (actions ++ [action]) := by
  obtain ⟨before, after, auth, values, split, same, answers, batch⟩ := earned
  refine ⟨before, after ++ [action], auth, values, ?_, same, answers, batch⟩
  rw [split, List.append_assoc, List.cons_append]

/-! ### What a step does to the values -/

variable {sink : Type}

/-- Nothing has been written or committed between two states. -/
structure SameValues (state next : State sink) : Prop where
  sinks : next.sinks = state.sinks
  interval : next.interval = state.interval
  lastRefresh : next.lastRefresh = state.lastRefresh
  commits : next.commits = state.commits
  log : next.commitLog = state.commitLog

namespace SameValues

variable {state middle next : State sink}

theorem refl (state : State sink) : SameValues state state := ⟨rfl, rfl, rfl, rfl, rfl⟩

theorem trans (first : SameValues state middle) (second : SameValues middle next) :
    SameValues state next where
  sinks := second.sinks.trans first.sinks
  interval := second.interval.trans first.interval
  lastRefresh := second.lastRefresh.trans first.lastRefresh
  commits := second.commits.trans first.commits
  log := second.log.trans first.log

/-- Events that are no commits leave all values as they are. -/
theorem note (same : SameValues state next) {event : Event}
    (silent : commitOf? (next.now, event) = none) : SameValues state (next.note event) := by
  refine same.trans ⟨rfl, rfl, rfl, rfl, ?_⟩
  unfold State.commitLog State.note
  rw [extract_cons, silent]
  exact List.append_nil _

theorem setWatcher (same : SameValues state next) (watcher : Watcher) :
    SameValues state (next.setWatcher watcher) := by
  have log : (next.setWatcher watcher).commitLog = next.commitLog :=
    State.extract_setWatcher (fun _ _ => rfl) next watcher
  rw [State.setWatcher_eq] at log ⊢
  exact same.trans ⟨rfl, rfl, rfl, rfl, log⟩

theorem beginCycle (state : State sink) (party : Party) (delivery : Delivery) :
    SameValues state (state.beginCycle party delivery) := by
  rw [State.beginCycle_eq]
  exact ⟨rfl, rfl, rfl, rfl, rfl⟩

theorem moveCycle (state : State sink) (party : Party) (cycle : Cycle) (stage : Stage) :
    SameValues state (state.moveCycle party cycle stage) := by
  have log : (state.moveCycle party cycle stage).commitLog = state.commitLog := by
    unfold State.commitLog
    rw [State.extract_moveCycle]
    cases stage <;> exact List.append_nil _
  rw [State.moveCycle_eq] at log ⊢
  exact ⟨rfl, rfl, rfl, rfl, log⟩

theorem endCycle (state : State sink) (party : Party) :
    SameValues state (state.endCycle party) := by
  rw [State.endCycle_eq]
  exact ⟨rfl, rfl, rfl, rfl, rfl⟩

/-- A cycle that ends leaves all values as they are. -/
theorem finish (state : State sink) (party : Party) (result : Except LoadError Unit) :
    SameValues state (state.finish party result) := by
  have log : (state.finish party result).commitLog = state.commitLog :=
    (State.extract_finish (fun _ _ => rfl) state party result).trans (List.append_nil _)
  rw [State.finish_eq] at log ⊢
  exact ⟨rfl, rfl, rfl, rfl, log⟩

theorem breakDown (state : State sink) (party : Party) (reason : String) :
    SameValues state (state.breakDown party reason) := by
  have log : (state.breakDown party reason).commitLog = state.commitLog :=
    (State.extract_breakDown state party reason).trans (List.append_nil _)
  rw [State.breakDown_eq] at log ⊢
  exact ⟨rfl, rfl, rfl, rfl, log⟩

end SameValues

/-- The cycle of a party writes its batch, which counts from then on, and is over. -/
structure Commits [ConfigSink sink] (state : State sink) (party : Party) (cycle : Cycle)
    (batch : Staged) (next : State sink) : Prop where
  running : state.cycles party = some cycle
  stage : cycle.stage = .staged batch
  sinks : next.sinks = Function.update state.sinks cycle.delivery.target
    (ConfigSink.setAll (state.sinks cycle.delivery.target) batch.entries)
  interval : next.interval = some batch.interval
  lastRefresh : next.lastRefresh = some state.now
  commits : next.commits = state.commits + 1
  log : next.commitLog = state.commitLog ++ [⟨state.now, party, cycle.delivery.target, batch⟩]
  done : next.cycles party = none
  result : next.lastResult? party = some (.ok ())

/-- What an action does to the values: nothing, or a cycle commits, or a sink breaks down after
some of the values of a cycle, which does not count as a commit. -/
inductive ValueStep [ConfigSink sink] (state : State sink) : Action → State sink → Prop
  | apart {action : Action} {next : State sink} (noCommit : ∀ party, action ≠ .commit party)
      (same : SameValues state next) : ValueStep state action next
  | commit {party : Party} {cycle : Cycle} {batch : Staged} {next : State sink}
      (commits : Commits state party cycle batch next) : ValueStep state (.commit party) next
  | breakOff {party : Party} {written : Nat} {reason : String} {next : State sink}
      (interval : next.interval = state.interval)
      (lastRefresh : next.lastRefresh = state.lastRefresh)
      (commits : next.commits = state.commits) (log : next.commitLog = state.commitLog) :
      ValueStep state (.writeBroke party written reason) next

section

variable {state : State sink}

/-- What a cycle ended with is the last result of its party. -/
theorem State.lastResult?_finish (state : State sink) (party : Party)
    (result : Except LoadError Unit) :
    (state.finish party result).lastResult? party = some result := by
  rw [finish_eq]
  unfold lastResult? tellings
  split
  · simp
  · cases state.watcherAfter party result with
    | none => simp
    | some watcher => simp

variable [ConfigSink sink]

theorem State.sinks_commit (state : State sink) (party : Party) (target : Target)
    (batch : Staged) :
    (state.commit party target batch).sinks =
      Function.update state.sinks target
        (ConfigSink.setAll (state.sinks target) batch.entries) := by
  funext other
  rw [Function.update_apply]
  rfl

/-- A commit is the last in the log. -/
theorem State.commitLog_commit (state : State sink) (party : Party) (target : Target)
    (batch : Staged) :
    (state.commit party target batch).commitLog =
      state.commitLog ++ [⟨state.now, party, target, batch⟩] := by
  unfold commitLog commit note
  rw [extract_cons]
  exact congrArg (· ++ _) (extract_write (fun _ _ _ _ => rfl) state target batch.entries)

/-- A cycle that commits writes its batch, goes by its interval and ends well. -/
theorem Commits.of_commit {party : Party} {cycle : Cycle} {batch : Staged}
    (running : state.cycles party = some cycle) (stage : cycle.stage = .staged batch) :
    Commits state party cycle batch
      ((state.commit party cycle.delivery.target batch).finish party (.ok ())) := by
  have after : SameValues (state.commit party cycle.delivery.target batch) _ :=
    .finish _ party (.ok ())
  refine ⟨running, stage, ?_, ?_, ?_, ?_, ?_, ?_, ?_⟩
  · rw [after.sinks, State.sinks_commit]
  · rw [after.interval]
    rfl
  · rw [after.lastRefresh]
    rfl
  · rw [after.commits]
    rfl
  · rw [after.log, State.commitLog_commit]
  · exact State.cycles_finish_self ..
  · exact State.lastResult?_finish ..

theorem ValueStep.of_writeBroke (party : Party) (target : Target) (batch : Staged)
    (written : Nat) (reason : String) :
    ValueStep state (.writeBroke party written reason)
      ((state.write target (batch.entries.take written)).breakDown party reason) := by
  have after : SameValues (state.write target (batch.entries.take written)) _ :=
    .breakDown _ party reason
  refine .breakOff after.interval after.lastRefresh after.commits ?_
  rw [after.log]
  exact State.extract_write (fun _ _ _ _ => rfl) state target _

/-- Every step leaves the values as they are, is a commit, or breaks down while it writes. -/
theorem ValueStep.of_move {action : Action} {next : State sink}
    (move : Move state action next) : ValueStep state action next := by
  have same : SameValues state state := .refl state
  cases move with
  | begin idle guarded => exact .apart (by nofun) (.beginCycle ..)
  | enter active stage turn => exact .apart (by nofun) ((SameValues.moveCycle ..).note rfl)
  | tokenCame active stage =>
    exact .apart (by nofun) (((SameValues.moveCycle ..).note rfl).note rfl)
  | tokenFailed active stage => exact .apart (by nofun) (.finish ..)
  | @tokenTaken party cycle auth active stage =>
    have taken : SameValues state { state with storeToken := some auth.token } :=
      ⟨rfl, rfl, rfl, rfl, rfl⟩
    exact .apart (by nofun) (taken.trans (.moveCycle ..))
  | secretCame active stage => exact .apart (by nofun) ((same.note rfl).trans (.moveCycle ..))
  | secretFailed active stage => exact .apart (by nofun) (.finish ..)
  | callBroke active calling => exact .apart (by nofun) (.breakDown ..)
  | askSink active stage toAsk => exact .apart (by nofun) ⟨rfl, rfl, rfl, rfl, rfl⟩
  | commit active stage free =>
    exact .commit (.of_commit (State.cycles_of_active active) stage)
  | writeBroke active stage free short => exact .of_writeBroke ..
  | abandon running => exact .apart (by nofun) ((SameValues.endCycle ..).note rfl)
  | arm active phase => exact .apart (by nofun) (same.setWatcher _)
  | rearm active phase known unheard => exact .apart (by nofun) (same.setWatcher _)
  | due active phase heard reached => exact .apart (by nofun) ((same.setWatcher _).note rfl)
  | resume active phase reached => exact .apart (by nofun) ((same.setWatcher _).note rfl)
  | launch active phase idle => exact .apart (by nofun) (.beginCycle ..)
  | requestStop present => exact .apart (by nofun) (same.setWatcher _)
  | quitIdle present asked running idle => exact .apart (by nofun) (same.setWatcher _)
  | quitCycle present asked running inCycle =>
    exact .apart (by nofun) (((SameValues.endCycle ..).note rfl).setWatcher _)
  | lockSink fresh => exact .apart (by nofun) ⟨rfl, rfl, rfl, rfl, rfl⟩
  | unlockSink claimed unused => exact .apart (by nofun) ⟨rfl, rfl, rfl, rfl, rfl⟩
  | beginWait present kept => exact .apart (by nofun) (same.setWatcher _)
  | waitLate present late => exact .apart (by nofun) (same.note rfl)
  | finishWait present ended taken => exact .apart (by nofun) ((same.setWatcher _).note rfl)
  | dropWait present taken => exact .apart (by nofun) (same.setWatcher _)
  | advance later quiet timely => exact .apart (by nofun) ⟨rfl, rfl, rfl, rfl, rfl⟩

end

/-! ### Runs -/

/-- The last commit counts: its interval, its time, and how many there were by then. -/
structure Ledger (state : State sink) : Prop where
  interval : state.interval = state.commitLog.getLast?.map fun commit => commit.batch.interval
  lastRefresh : state.lastRefresh = state.commitLog.getLast?.map Commit.time
  commits : state.commits = state.commitLog.length

variable [ConfigSink sink] {settings : LoaderSettings} {sinks : Target → sink}
  {actions : List Action} {state : State sink}

/-- Every step keeps the interval, the time of the last refresh and the count as the log tells
them. -/
theorem Ledger.step {action : Action} {next : State sink} (ledger : Ledger state)
    (step : ValueStep state action next) : Ledger next := by
  cases step with
  | apart noCommit same =>
    refine ⟨?_, ?_, ?_⟩
    · rw [same.interval, same.log, ledger.interval]
    · rw [same.lastRefresh, same.log, ledger.lastRefresh]
    · rw [same.commits, same.log, ledger.commits]
  | commit commits =>
    refine ⟨?_, ?_, ?_⟩
    · rw [commits.interval, commits.log, List.getLast?_concat]
      rfl
    · rw [commits.lastRefresh, commits.log, List.getLast?_concat]
      rfl
    · rw [commits.commits, commits.log, List.length_append, ledger.commits]
      rfl
  | breakOff interval lastRefresh commits log =>
    refine ⟨?_, ?_, ?_⟩
    · rw [interval, log, ledger.interval]
    · rw [lastRefresh, log, ledger.lastRefresh]
    · rw [commits, log, ledger.commits]

theorem ledger_of_run (run : (State.start settings sinks).run? actions = some state) :
    Ledger state :=
  State.run_induction (fun _ state => Ledger state) ⟨rfl, rfl, rfl⟩
    (fun _ ledger move => ledger.step (.of_move move)) run

/-- A sink holds what it held first and the batches committed to it, in their order. -/
theorem contents_of_run (run : (State.start settings sinks).run? actions = some state)
    (hold : SinksHold actions) (target : Target) :
    state.sinks target = contentsAfter target (sinks target) state.commitLog := by
  refine State.run_induction (fun actions state => SinksHold actions →
    state.sinks target = contentsAfter target (sinks target) state.commitLog)
    (fun _ => rfl) ?_ run hold
  intro actions state action next _ inductionHypothesis move hold
  obtain ⟨holdBefore, unbroken⟩ := hold.of_append_singleton
  have before := inductionHypothesis holdBefore
  cases ValueStep.of_move move with
  | apart noCommit same => rw [same.sinks, same.log, before]
  | @commit party cycle batch next commits =>
    rw [commits.sinks, commits.log, contentsAfter_append_singleton]
    by_cases here : cycle.delivery.target = target
    · subst here
      rw [Function.update_self, if_pos rfl, before]
    · rw [Function.update_of_ne (Ne.symm here), if_neg here, before]
  | breakOff interval lastRefresh commits log => exact absurd rfl (unbroken _ _ _)

/-- Whatever is committed was read and staged for it. -/
theorem earned_of_run (run : (State.start settings sinks).run? actions = some state) :
    ∀ commit ∈ state.commitLog, commit.IsEarned settings.secrets actions := by
  refine State.run_induction (fun actions state =>
    ∀ commit ∈ state.commitLog, commit.IsEarned settings.secrets actions)
    (fun commit member => absurd member List.not_mem_nil) ?_ run
  intro actions state action next run inductionHypothesis move commit member
  have built : state.settings = settings := State.settings_of_run run
  cases ValueStep.of_move move with
  | apart noCommit same => exact (inductionHypothesis commit (same.log ▸ member)).later action
  | @commit party cycle batch next commits =>
    rw [commits.log] at member
    rcases List.mem_append.mp member with earlier | last
    · exact (inductionHypothesis commit earlier).later _
    · obtain ⟨closed, current, traced⟩ := traced_of_run run
      obtain ⟨deeds, course, -⟩ := traced.courses party cycle commits.running
      rw [commits.stage, built] at course
      obtain ⟨auth, values, same, answers, -, gathered⟩ := course.fits
      rw [List.mem_singleton.mp last]
      exact ⟨actions, [], auth, values, rfl, same, answers, gathered⟩
  | breakOff interval lastRefresh commits log =>
    exact (inductionHypothesis commit (log ▸ member)).later _

/-- Commits are never undone. -/
theorem commitLog_prefix_of_run {later : State sink} (run : state.run? actions = some later) :
    state.commitLog <+: later.commitLog := by
  refine State.run_induction (fun _ later => state.commitLog <+: later.commitLog)
    List.prefix_rfl ?_ run
  intro actions middle action next _ inductionHypothesis move
  cases ValueStep.of_move move with
  | apart noCommit same => exact same.log ▸ inductionHypothesis
  | commit commits =>
    rw [commits.log]
    exact inductionHypothesis.trans (List.prefix_append ..)
  | breakOff interval lastRefresh commits log => exact log ▸ inductionHypothesis

/-! ### All or nothing -/

/-- The values in every state come from the commits so far and from nothing else. A commit is the
last step of a cycle that was answered well throughout, and a cycle that ends otherwise has
changed nothing. -/
theorem cycles_commit_whole (run : (State.start settings sinks).run? actions = some state) :
    (SinksHold actions → ∀ target,
      state.sinks target = contentsAfter target (sinks target) state.commitLog) ∧
    state.interval = state.commitLog.getLast?.map (fun commit => commit.batch.interval) ∧
    (state.interval = none ↔ state.commitLog = []) ∧
    state.lastRefresh.isSome = state.interval.isSome ∧
    (∀ more later, state.run? more = some later →
      state.commitLog <+: later.commitLog ∧
        (state.interval.isSome = true → later.interval.isSome = true)) ∧
    (∀ commit ∈ state.commitLog, commit.IsEarned settings.secrets actions) ∧
    (∀ party next, state.step? (.commit party) = some next → ∃ cycle batch,
      state.cycles party = some cycle ∧ cycle.stage = .staged batch ∧
      next.commitLog = state.commitLog ++ [⟨state.now, party, cycle.delivery.target, batch⟩] ∧
      next.cycles party = none ∧ next.lastResult? party = some (.ok ())) ∧
    (∀ action next, state.step? action = some next → (∀ party, action ≠ .commit party) →
      (∀ party written reason, action ≠ .writeBroke party written reason) →
      next.sinks = state.sinks ∧ next.interval = state.interval ∧
        next.lastRefresh = state.lastRefresh ∧ next.commitLog = state.commitLog) := by
  have ledger : Ledger state := ledger_of_run run
  have noneYet : state.interval = none ↔ state.commitLog = [] := by
    rw [ledger.interval, Option.map_eq_none_iff, List.getLast?_eq_none_iff]
  refine ⟨contents_of_run run, ledger.interval, noneYet, ?_, fun more later further => ?_,
    earned_of_run run, fun party next step => ?_, fun action next step noCommit unbroken => ?_⟩
  · rw [ledger.lastRefresh, ledger.interval, Option.isSome_map, Option.isSome_map]
  · have grown : state.commitLog <+: later.commitLog := commitLog_prefix_of_run further
    have wholeRun : (State.start settings sinks).run? (actions ++ more) = some later := by
      rw [State.run?_append, run]
      exact further
    refine ⟨grown, fun known => ?_⟩
    rw [ledger.interval, Option.isSome_map, List.getLast?_isSome] at known
    rw [(ledger_of_run wholeRun).interval, Option.isSome_map, List.getLast?_isSome]
    exact grown.ne_nil known
  · cases Move.of_step? step with
    | commit active stage free =>
      have commits := Commits.of_commit (State.cycles_of_active active) stage
      exact ⟨_, _, commits.running, stage, commits.log, commits.done, commits.result⟩
  · cases ValueStep.of_move (.of_step? step) with
    | apart noCommit same => exact ⟨same.sinks, same.interval, same.lastRefresh, same.log⟩
    | commit commits => exact absurd rfl (noCommit _)
    | breakOff interval lastRefresh commits log => exact absurd rfl (unbroken _ _ _)

/-- One cycle commits into a sink of its own, the next fails at its call for a token, and the last
is given up between its reads. -/
def threeFates : List Action :=
  [.begin 0 (.direct (.own 0)), .enter (.host 0),
    .tokenReturned (.host 0) (.ok ⟨"s", Duration.ofSeconds 60⟩), .tokenTaken (.host 0),
    .readReturned (.host 0) (.ok { payload := [("x", .null)], lease := .ofSeconds 40 }),
    .readReturned (.host 0) (.ok { payload := [("y", .null)], lease := .ofSeconds 20 }),
    .commit (.host 0), .begin 1 .locking, .enter (.host 1),
    .tokenReturned (.host 1) (.error .rateLimited), .begin 2 .locking, .enter (.host 2),
    .tokenReturned (.host 2) (.ok ⟨"t", Duration.ofSeconds 60⟩), .tokenTaken (.host 2),
    .readReturned (.host 2) (.ok { payload := [("x", .null)], lease := .ofSeconds 40 }), .abandon 2]

theorem cycles_commit_whole_of_three : ∃ state,
    (State.start twoSecrets fun _ => Values.empty).run? threeFates = some state ∧
      state.commitLog.map Commit.party = [.host 0] ∧ SinksHold threeFates ∧
      (∀ target, state.sinks target = contentsAfter target Values.empty state.commitLog) ∧
      state.interval = some (Duration.ofSeconds 15) ∧
      ∀ commit ∈ state.commitLog, commit.IsEarned twoSecrets.secrets threeFates := by
  obtain ⟨state, run, parties, interval⟩ : ∃ state,
      (State.start twoSecrets fun _ => Values.empty).run? threeFates = some state ∧
        state.commitLog.map Commit.party = [.host 0] ∧
        state.interval = some (Duration.ofSeconds 15) :=
    ⟨_, rfl, rfl, by decide⟩
  have hold : SinksHold threeFates := by simp [SinksHold, threeFates]
  have whole := cycles_commit_whole run
  exact ⟨state, run, parties, hold, whole.1 hold, interval, whole.2.2.2.2.2.1⟩

end SecretRenewal.Loader
