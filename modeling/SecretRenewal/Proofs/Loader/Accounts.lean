/-
This file reads off the rounds what the background task tells and how it ends. It tells in turn
that it waits and that it refreshes, until it tells that it has ended, and nothing after that. It
ends with an error exactly when a round was of no avail and the settings say so, and with the
error of the last attempt; otherwise it ends only when it was asked to.
-/
import SecretRenewal.Proofs.Loader.Rounds
import Mathlib.Data.List.Chain

namespace SecretRenewal.Loader

/-! ### The account of a background task -/

/-- What the background task may tell after what it has told. -/
inductive Follows : WatcherState → WatcherState → Prop
  | turns : Follows .idle .refreshing
  | returns : Follows .refreshing .idle
  | ends {told : WatcherState} (running : told ≠ .stopped) : Follows told .stopped

/-- What the background task has told, in order. At first it waits. -/
def State.told (state : State sink) : List WatcherState :=
  .idle :: state.watchLog.filterMap told?

/-- A log of a background task made up of the rounds that are over, the round that it is in or
that it has ended in, and its farewell. -/
structure Account (settings : LoaderSettings) (watcher : Watcher) (log : List (Nat × Event))
    (rounds : List Round) (current : Option Round) (stopped : Option Nat) : Prop where
  whole : log = (rounds ++ current.toList).flatMap Round.log ++
    stopped.toList.map fun time => (time, .published .stopped)
  fits : ∀ round ∈ rounds ++ current.toList, round.Fits settings
  back : ∀ round ∈ rounds, round.standing.isBack = true
  notBack : ∀ round ∈ current, round.standing.isBack = false
  tells : watcher.published =
    if stopped.isSome then .stopped else if current.isSome then .refreshing else .idle
  runs : watcher.phase.isRunning = stopped.isNone
  exhausted : (∃ count error, watcher.phase = .ended (.error (.retryExhausted count error))) ↔
    settings.stopOnFailure = true ∧
      ∃ round ∈ rounds ++ current.toList, round.failed.length = settings.maxRetry.toNat + 1
  outcome : ∀ count error, watcher.phase = .ended (.error (.retryExhausted count error)) →
    count.toNat = settings.maxRetry.toNat + 1 ∧
      ∃ round last, current = some round ∧ round.failed.getLast? = some last ∧
        last.error = error ∧ stopped = some last.ended

theorem Standing.isExhausted_of_isBack {standing : Standing} (back : standing.isBack = true) :
    standing.isExhausted = false := by
  cases standing with
  | exhausted last => cases back
  | _ => rfl

/-- Rounds none of which has exhausted the background task. -/
theorem not_exhausted {settings : LoaderSettings} {rounds : List Round}
    (fits : ∀ round ∈ rounds, round.Fits settings)
    (runs : ∀ round ∈ rounds, round.standing.isExhausted = false) :
    ¬ (settings.stopOnFailure = true ∧
      ∃ round ∈ rounds, round.failed.length = settings.maxRetry.toNat + 1) := by
  rintro ⟨stops, round, member, all⟩
  have exhausted : round.standing.isExhausted = true :=
    (fits round member).exhausted.mpr ⟨all, stops⟩
  rw [runs round member] at exhausted
  cases exhausted

/-- Where no round has exhausted the background task, the account need not say how it ended. -/
theorem Account.of_unexhausted {settings : LoaderSettings} {watcher : Watcher}
    {log : List (Nat × Event)} {rounds : List Round} {current : Option Round}
    {stopped : Option Nat} (past : ∀ round ∈ rounds, round.IsOver settings)
    (fits : ∀ round ∈ current, round.Fits settings ∧ round.standing.isBack = false ∧
      round.standing.isExhausted = false)
    (whole : log = (rounds ++ current.toList).flatMap Round.log ++
      stopped.toList.map fun time => (time, .published .stopped))
    (tells : watcher.published =
      if stopped.isSome then .stopped else if current.isSome then .refreshing else .idle)
    (runs : watcher.phase.isRunning = stopped.isNone)
    (otherwise : ∀ count error,
      watcher.phase ≠ .ended (.error (.retryExhausted count error))) :
    Account settings watcher log rounds current stopped := by
  have allFit : ∀ round ∈ rounds ++ current.toList, round.Fits settings := by
    intro round member
    rcases List.mem_append.mp member with isOver | isCurrent
    · exact (past round isOver).1
    · exact (fits round (Option.mem_toList.mp isCurrent)).1
  have noneExhausted : ∀ round ∈ rounds ++ current.toList,
      round.standing.isExhausted = false := by
    intro round member
    rcases List.mem_append.mp member with isOver | isCurrent
    · exact Standing.isExhausted_of_isBack (past round isOver).2
    · exact (fits round (Option.mem_toList.mp isCurrent)).2.2
  refine ⟨whole, allFit, fun round isOver => (past round isOver).2,
    fun round isCurrent => (fits round isCurrent).2.1, tells, runs, ?_, ?_⟩
  · exact iff_of_false (fun ⟨count, error, ended⟩ => otherwise count error ended)
      (not_exhausted allFit noneExhausted)
  · exact fun count error ended => absurd ended (otherwise count error)

/-- The account of a background task that still runs. -/
theorem Account.of_running {settings : LoaderSettings} {watcher : Watcher}
    {log : List (Nat × Event)} {rounds : List Round} {current : Option Round}
    (past : ∀ round ∈ rounds, round.IsOver settings)
    (fits : ∀ round ∈ current, round.Fits settings ∧ round.standing.isBack = false ∧
      round.standing.isExhausted = false)
    (whole : log = (rounds ++ current.toList).flatMap Round.log)
    (tells : watcher.published = if current.isSome then .refreshing else .idle)
    (running : watcher.phase.isRunning = true) :
    Account settings watcher log rounds current none := by
  refine .of_unexhausted past fits (whole.trans (List.append_nil _).symm) tells running ?_
  intro count error ended
  rw [ended] at running
  cases running

/-- An account of a background task that has not broken down. -/
theorem Story.account {settings : LoaderSettings} {now : Nat} {log : List (Nat × Event)}
    {watcher : Watcher} (story : Story settings now watcher.stopRequested log watcher.phase)
    (honest : watcher.IsHonest) (small : settings.maxRetry.toNat + 1 < UInt32.size)
    (unbroken : ∀ reason, watcher.phase ≠ .brokeDown reason) :
    ∃ rounds current stopped, Account settings watcher log rounds current stopped := by
  generalize isPhase : watcher.phase = phase at story
  have honesty := honest
  unfold Watcher.IsHonest at honesty
  rw [isPhase] at honesty
  cases story with
  | @starts rounds past isLog =>
    have running : watcher.phase.isRunning = true := by rw [isPhase]; rfl
    refine ⟨rounds, none, none, .of_running past nofun ?_ (honesty _ rfl) running⟩
    rw [isLog, Option.toList_none, List.append_nil]
  | @waits rounds alarm past isLog =>
    have running : watcher.phase.isRunning = true := by rw [isPhase]; rfl
    refine ⟨rounds, none, none, .of_running past nofun ?_ (honesty _ rfl) running⟩
    rw [isLog, Option.toList_none, List.append_nil]
  | @attempts rounds began next failures attempt past pace count allowed isLog =>
    have running : watcher.phase.isRunning = true := by rw [isPhase]; rfl
    have fits : Round.Fits settings ⟨began, failures, .attempting next⟩ :=
      Round.fits_of_next pace (count ▸ UInt32.le_iff_toNat_le.mp allowed) rfl rfl rfl rfl
    refine ⟨rounds, some ⟨began, failures, .attempting next⟩, none, .of_running past
      (fun round isCurrent => by cases isCurrent; exact ⟨fits, rfl, rfl⟩) ?_ (honesty _ rfl)
      running⟩
    rw [isLog, Option.toList_some, flatMap_log_append]
  | @pauses rounds began wake failures attempt past pace count allowed early isLog =>
    have running : watcher.phase.isRunning = true := by rw [isPhase]; rfl
    have few : failures.length ≤ settings.maxRetry.toNat := by
      rw [count]
      exact UInt32.lt_iff_toNat_lt.mp allowed
    have fits : Round.Fits settings ⟨began, failures, .pausing⟩ :=
      Round.fits_of_pause pace (count ▸ Nat.le_add_left ..) few
    refine ⟨rounds, some ⟨began, failures, .pausing⟩, none, .of_running past
      (fun round isCurrent => by cases isCurrent; exact ⟨fits, rfl, rfl⟩) ?_ (honesty _ rfl)
      running⟩
    rw [isLog, Option.toList_some, flatMap_log_append]
  | @exhausts rounds began failures last past pace count stops isLog =>
    have fits : Round.Fits settings ⟨began, failures, .exhausted last⟩ :=
      Round.fits_of_last pace count rfl rfl rfl (by rw [stops]; rfl) (by rw [stops]; rfl)
    refine ⟨rounds, some ⟨began, failures, .exhausted last⟩, some last.ended, ?_, ?_, ?_, ?_,
      honesty _ rfl, ?_, ?_, ?_⟩
    · rw [isLog, Option.toList_some, flatMap_log_append]
      rfl
    · intro round member
      rcases List.mem_append.mp member with isOver | isCurrent
      · exact (past round isOver).1
      · cases List.mem_singleton.mp isCurrent
        exact fits
    · exact fun round isOver => (past round isOver).2
    · intro round isCurrent
      cases isCurrent
      rfl
    · rw [isPhase]
      rfl
    · refine iff_of_true ⟨_, _, isPhase⟩ ⟨stops, _, List.mem_append_right _ (.head _), ?_⟩
      exact (fits.exhausted.mp rfl).1
    · intro times error ended
      rw [isPhase] at ended
      cases ended
      refine ⟨?_, _, last, rfl, List.getLast?_concat .., rfl, rfl⟩
      rw [UInt32.toNat_add]
      exact Nat.mod_eq_of_lt small
  | @quits rounds current stopped isAsked past cut isLog =>
    refine ⟨rounds, current, some stopped, .of_unexhausted past cut isLog (honesty _ rfl) ?_ ?_⟩
    · rw [isPhase]
      rfl
    · rw [isPhase]
      nofun
  | breaks => exact absurd isPhase (unbroken _)

/-! ### What is told in turn -/

/-- Rounds that are over leave the background task telling that it waits. -/
theorem told_rounds {rounds : List Round} (back : ∀ round ∈ rounds, round.standing.isBack = true)
    (rest : List WatcherState) :
    ((WatcherState.idle :: rest).IsChain Follows →
      (.idle :: ((rounds.flatMap Round.log).filterMap told? ++ rest)).IsChain Follows) ∧
    (.idle :: ((rounds.flatMap Round.log).filterMap told? ++ rest)).getLast? =
      (WatcherState.idle :: rest).getLast? := by
  induction rounds with
  | nil => exact ⟨id, rfl⟩
  | cons round rounds hyp =>
    have told : (round.log.filterMap told?) = [.refreshing, .idle] := by
      rw [Round.filterMap_told?, if_pos (back round (.head _))]
    obtain ⟨chain, last⟩ := hyp fun later member => back later (.tail _ member)
    rw [List.flatMap_cons, List.filterMap_append, told]
    refine ⟨fun follows => ?_, ?_⟩
    · exact .cons_cons .turns (.cons_cons .returns (chain follows))
    · rw [← last, List.append_assoc]
      rfl

/-- What an account leaves the background task telling. -/
theorem Account.told {settings : LoaderSettings} {watcher : Watcher} {log : List (Nat × Event)}
    {rounds : List Round} {current : Option Round} {stopped : Option Nat}
    (account : Account settings watcher log rounds current stopped) :
    (WatcherState.idle :: log.filterMap told?).IsChain Follows ∧
      (WatcherState.idle :: log.filterMap told?).getLast? = some watcher.published := by
  have isLog := account.whole
  have tells := account.tells
  rw [List.flatMap_append, List.append_assoc] at isLog
  rw [isLog, List.filterMap_append]
  obtain ⟨chain, last⟩ := told_rounds account.back
    ((current.toList.flatMap Round.log ++
      stopped.toList.map fun time => (time, Event.published .stopped)).filterMap told?)
  rw [last, tells]
  have entering : ∀ round ∈ current, round.log.filterMap told? = [.refreshing] := by
    intro round isCurrent
    rw [Round.filterMap_told?, account.notBack round isCurrent]
    rfl
  have refreshes : WatcherState.refreshing ≠ .stopped := nofun
  have waits : WatcherState.idle ≠ .stopped := nofun
  cases current with
  | none =>
    cases stopped with
    | none => exact ⟨chain (.singleton _), rfl⟩
    | some time => exact ⟨chain (.cons_cons (.ends waits) (.singleton _)), rfl⟩
  | some round =>
    rw [Option.toList_some, List.flatMap_singleton, List.filterMap_append,
      entering round rfl] at chain ⊢
    cases stopped with
    | none => exact ⟨chain (.cons_cons .turns (.singleton _)), rfl⟩
    | some time =>
      exact ⟨chain (.cons_cons .turns (.cons_cons (.ends refreshes) (.singleton _))), rfl⟩

/-! ### How it ends -/

/-- The background task ends with the error of the last attempt or when it was asked to. -/
theorem Story.outcome {settings : LoaderSettings} {now : Nat} {asked : Bool}
    {log : List (Nat × Event)} {result : Except LoadError Unit}
    (story : Story settings now asked log (.ended result)) :
    (settings.stopOnFailure = true ∧
      ∃ count error, result = .error (.retryExhausted count error)) ∨
    (asked = true ∧ result = .ok ()) := by
  cases story with
  | exhausts past pace count stops isLog => exact .inl ⟨stops, _, _, rfl⟩
  | quits isAsked past cut isLog => exact .inr ⟨isAsked, rfl⟩

/-- All attempts of a round but the last have failed. -/
theorem Round.dropLast_attempts (round : Round) :
    round.attempts.dropLast <+: round.failed.map Failure.began := by
  obtain ⟨began, failures, standing⟩ := round
  unfold attempts failed
  rw [List.map_append]
  cases next : standing.began? with
  | none =>
    rw [Option.toList_none, List.append_nil]
    exact (List.dropLast_prefix _).trans (List.prefix_append ..)
  | some time =>
    rw [Option.toList_some, List.dropLast_concat]
    exact List.prefix_append ..

theorem Phase.ended_of_not_running {phase : Phase} (unbroken : ∀ reason, phase ≠ .brokeDown reason)
    (notRunning : phase.isRunning ≠ true) : ∃ result, phase = .ended result := by
  cases phase with
  | ended result => exact ⟨result, rfl⟩
  | brokeDown reason => exact absurd rfl (unbroken reason)
  | _ => exact absurd rfl notRunning

/-! ### Runs -/

variable {sink : Type} [ConfigSink sink]

theorem State.step?_resume {state : State sink} {watcher : Watcher} {attempt : UInt32} {wake : Nat}
    (active : state.activeWatcher? = some watcher) (phase : watcher.phase = .pausing attempt wake)
    (reached : wake ≤ state.now) :
    state.step? .resume = some ((state.setWatcher
      { watcher with phase := .refreshing (attempt + 1) }).note .turned) := by
  show state.resume? = _
  unfold State.resume?
  simp only [active, phase, Option.bind_eq_bind, Option.bind_some]
  exact if_pos reached

theorem State.step?_launch {state : State sink} {watcher : Watcher}
    (active : state.activeWatcher? = some watcher)
    (turned : state.isTurnedToCycle watcher = true) :
    state.step? .launch = some (state.beginCycle .watcher .locking) := by
  show state.launch? = _
  unfold State.launch?
  simp only [active, Option.bind_eq_bind, Option.bind_some]
  exact if_pos turned

/-- The background task makes its attempts in rounds, and what it tells and how it ends goes by
them. -/
structure TriesInRounds (settings : LoaderSettings) (actions : List Action)
    (state : State sink) (watcher : Watcher) : Prop where
  told : state.told.IsChain Follows
  tells : state.told.getLast? = some watcher.published
  account : ∃ rounds current stopped,
    Account settings watcher state.watchLog rounds current stopped ∧
      ∀ round ∈ rounds ++ current.toList, (round.log.filterMap commitOf?).length ≤ 1 ∧
        round.attempts.dropLast <+: round.failed.map Failure.began
  /-- A pause that is over is followed by an attempt before any time passes. -/
  resumes : ∀ attempt wake, watcher.phase = .pausing attempt wake → wake ≤ state.now →
    (∀ time, state.step? (.advance time) = none) ∧
      (watcher.stopRequested = false → ∃ next, state.step? .resume = some next)
  /-- The cycle of an attempt begins before any time passes. -/
  launches : state.isTurnedToCycle watcher = true →
    (∀ time, state.step? (.advance time) = none) ∧
      (watcher.stopRequested = false → ∃ next, state.step? .launch = some next)
  /-- An end that the settings did not ask for was asked for by the program. -/
  stopped : watcher.published = .stopped →
    (∃ count error, watcher.phase = .ended (.error (.retryExhausted count error))) ∨
      watcher.phase = .ended (.ok ()) ∧ .requestStop ∈ actions
  goesOn : settings.stopOnFailure = false → .requestStop ∉ actions →
    watcher.phase.isRunning = true ∧ watcher.published ≠ .stopped

/-- The background task makes its attempts in rounds in every state that a loader gets to. -/
theorem tries_in_rounds {settings : LoaderSettings} {sinks : Target → sink}
    {actions : List Action} {state : State sink} {watcher : Watcher}
    (run : (State.start settings sinks).run? actions = some state)
    (present : state.watcher = some watcher) (small : settings.maxRetry.toNat + 1 < UInt32.size)
    (unbroken : ∀ reason, watcher.phase ≠ .brokeDown reason) :
    TriesInRounds settings actions state watcher := by
  have coherent : Coherent actions state := coherent_of_run run
  have honest : watcher.IsHonest := coherent.honest watcher present
  have story := hasStory_of_run run watcher present
  rw [State.settings_of_run run] at story
  have ending : ∀ result, watcher.phase = .ended result →
      (settings.stopOnFailure = true ∧
        ∃ count error, result = .error (.retryExhausted count error)) ∨
      (.requestStop ∈ actions ∧ result = .ok ()) := by
    intro result ended
    have outcome := story
    rw [ended] at outcome
    rcases outcome.outcome with exhausted | ⟨asked, quit⟩
    · exact .inl exhausted
    · exact .inr ⟨coherent.asked watcher present asked, quit⟩
  obtain ⟨rounds, current, stopped, account⟩ := story.account honest small unbroken
  refine ⟨account.told.1, account.told.2, ⟨rounds, current, stopped, account, ?_⟩, ?_, ?_, ?_,
    ?_⟩
  · exact fun round _ => ⟨round.commits_le_one, round.dropLast_attempts⟩
  · intro attempt wake phase reached
    refine ⟨fun time => State.no_advance_of_busy fun quiet => ?_, fun free => ?_⟩
    · exact Nat.not_le_of_lt (State.pausing_of_quiet quiet present phase) reached
    · have active := State.activeWatcher?_eq_some.mpr ⟨present, free⟩
      exact ⟨_, State.step?_resume active phase reached⟩
  · intro turned
    refine ⟨fun time => State.no_advance_of_busy fun quiet => ?_, fun free => ?_⟩
    · exact State.not_turned_of_quiet quiet present turned
    · have active := State.activeWatcher?_eq_some.mpr ⟨present, free⟩
      exact ⟨_, State.step?_launch active turned⟩
  · intro told
    have notRunning : watcher.phase.isRunning ≠ true := fun running =>
      honest.ne_stopped running told
    obtain ⟨result, ended⟩ := Phase.ended_of_not_running unbroken notRunning
    rcases ending result ended with ⟨-, count, error, exhausted⟩ | ⟨asked, quit⟩
    · exact .inl ⟨count, error, exhausted ▸ ended⟩
    · exact .inr ⟨quit ▸ ended, asked⟩
  · intro resigns unasked
    have running : watcher.phase.isRunning = true := by
      by_contra notRunning
      obtain ⟨result, ended⟩ := Phase.ended_of_not_running unbroken notRunning
      rcases ending result ended with ⟨stops, -⟩ | ⟨asked, -⟩
      · rw [resigns] at stops
        cases stops
      · exact unasked asked
    exact ⟨running, honest.ne_stopped running⟩

/-- One secret at once, a second attempt a second after the first, and an end after that. -/
def twoAttempts : LoaderSettings where
  secrets := [⟨"a", none⟩]
  maxRetry := 1
  retryDelay := Duration.ofSeconds 1
  stopOnFailure := true
  initialDelay := Duration.zero
  watched := true

/-- The first round commits, and both attempts of the second fail. -/
def untilExhausted : List Action :=
  [.arm, .due, .launch, .enter .watcher,
    .tokenReturned .watcher (.ok ⟨"s", Duration.ofSeconds 60⟩), .tokenTaken .watcher,
    .readReturned .watcher (.ok { payload := [("x", .null)], lease := .ofSeconds 60 }),
    .askSink .watcher, .commit .watcher, .arm, .advance 45000, .due, .launch, .enter .watcher,
    .tokenReturned .watcher (.error .rateLimited), .advance 46000, .resume, .launch,
    .enter .watcher, .tokenReturned .watcher (.error (.unavailable "b"))]

theorem tries_in_rounds_until_exhausted : ∃ state watcher,
    (State.start twoAttempts fun _ => Values.empty).run? untilExhausted = some state ∧
      state.watcher = some watcher ∧
      watcher.phase.outcome? = some (.error (.retryExhausted 2 (.unavailable "b"))) ∧
      state.told = [.idle, .refreshing, .idle, .refreshing, .stopped] ∧
      TriesInRounds twoAttempts untilExhausted state watcher := by
  have view : ((State.start twoAttempts fun _ => Values.empty).run? untilExhausted).map
      (fun state => (state.watcher.map fun watcher => watcher.phase.outcome?, state.told)) =
      some (some (some (.error (.retryExhausted 2 (.unavailable "b")))),
        [.idle, .refreshing, .idle, .refreshing, .stopped]) := by
    decide +kernel
  obtain ⟨state, run, seen⟩ := Option.map_eq_some_iff.mp view
  obtain ⟨isOutcome, told⟩ := Prod.mk.inj seen
  obtain ⟨watcher, present, outcome⟩ := Option.map_eq_some_iff.mp isOutcome
  have unbroken : ∀ reason, watcher.phase ≠ .brokeDown reason := by
    intro reason broken
    rw [broken] at outcome
    cases outcome
  exact ⟨state, watcher, run, present, outcome, told,
    tries_in_rounds run present (by decide) unbroken⟩

/-! ### Long pauses -/

/-- When the background task turned to a cycle. -/
def turnedAt? : Nat × Event → Option Nat
  | (time, .turned) => some time
  | _ => none

/-- When a cycle of the background task failed. -/
def failedAt? : Nat × Event → Option Nat
  | (time, .finished .watcher (.error _)) => some time
  | _ => none

/-- A second attempt ninety years after the first. -/
def ninetyYears : LoaderSettings where
  secrets := [⟨"a", none⟩]
  maxRetry := 1
  retryDelay := Duration.ofSeconds 2838240000
  stopOnFailure := true
  initialDelay := Duration.zero
  watched := true

/-- A pause is cut off after thirty years. -/
theorem pause_cut_off : ∃ state,
    (State.start ninetyYears fun _ => Values.empty).run?
        [.arm, .due, .launch, .enter .watcher, .tokenReturned .watcher (.error .rateLimited),
          .advance Clock.farOff, .resume] = some state ∧
      state.watchLog.filterMap failedAt? = [0] ∧
      state.watchLog.filterMap turnedAt? = [0, Clock.farOff] ∧
      Clock.tickAfter 0 ninetyYears.retryDelay = 3 * Clock.farOff := by
  have view : ((State.start ninetyYears fun _ => Values.empty).run?
        [.arm, .due, .launch, .enter .watcher, .tokenReturned .watcher (.error .rateLimited),
          .advance Clock.farOff, .resume]).map
      (fun state => (state.watchLog.filterMap failedAt?, state.watchLog.filterMap turnedAt?)) =
      some ([0], [0, Clock.farOff]) := by
    decide +kernel
  obtain ⟨state, run, seen⟩ := Option.map_eq_some_iff.mp view
  obtain ⟨failed, turned⟩ := Prod.mk.inj seen
  exact ⟨state, run, failed, turned, by decide⟩

end SecretRenewal.Loader
