/-
This file accounts for everything that the background task does. Each time it turns from waiting
to refreshing it makes a round of attempts: one, and after each that fails another, as many as it
may, each at the end of the pause that began with the failure. A round ends with an attempt that
succeeds or with the last failure, and only then does the background task wait again or end. The
log of the background task is the logs of its rounds one after another, with a farewell once it
has ended.
-/
import SecretRenewal.Proofs.Loader.Background

namespace SecretRenewal.Loader

/-! ### Rounds -/

/-- An attempt that failed. -/
structure Failure where
  began : Nat
  ended : Nat
  error : LoadError

/-- How a round stands after the failures that were followed by a pause. -/
inductive Standing
  /-- The next attempt has committed. -/
  | succeeded (began ended : Nat) (target : Target) (batch : Staged)
  /-- The last attempt has failed too, and the background task waits again. -/
  | resigned (last : Failure)
  /-- The last attempt has failed too, and the background task has ended. -/
  | exhausted (last : Failure)
  /-- The next attempt is under way. -/
  | attempting (began : Nat)
  /-- The next attempt was given up. -/
  | givenUp (began ended : Nat)
  /-- A request to stop came before the cycle of the next attempt could begin. -/
  | overtaken (began : Nat)
  /-- The next attempt is still to come. -/
  | pausing

namespace Standing

/-- When the next attempt began, if it did. -/
def began? : Standing → Option Nat
  | succeeded began _ _ _ | attempting began | givenUp began _ | overtaken began => some began
  | resigned last | exhausted last => some last.began
  | pausing => none

/-- The next attempt, if it has failed. -/
def failure? : Standing → Option Failure
  | resigned last | exhausted last => some last
  | _ => none

def isSuccess : Standing → Bool
  | succeeded .. => true
  | _ => false

/-- Whether the background task waits again. -/
def isBack : Standing → Bool
  | succeeded .. | resigned _ => true
  | _ => false

def isExhausted : Standing → Bool
  | exhausted _ => true
  | _ => false

end Standing

/-- What happens from the time when the background task tells that it refreshes. -/
structure Round where
  began : Nat
  failures : List Failure
  standing : Standing

/-! ### What a round leaves in the log -/

def Failure.log (failure : Failure) : List (Nat × Event) :=
  [(failure.began, .turned), (failure.ended, .finished .watcher (.error failure.error))]

def Standing.log : Standing → List (Nat × Event)
  | succeeded began ended target batch =>
    [(began, .turned), (ended, .committed .watcher target batch),
      (ended, .finished .watcher (.ok ())), (ended, .published .idle)]
  | resigned last => last.log ++ [(last.ended, .published .idle)]
  | exhausted last => last.log
  | attempting began | overtaken began => [(began, .turned)]
  | givenUp began ended => [(began, .turned), (ended, .abandoned .watcher)]
  | pausing => []

namespace Round

variable (round : Round)

def log : List (Nat × Event) :=
  (round.began, .published .refreshing) ::
    (round.failures.flatMap Failure.log ++ round.standing.log)

/-- When its attempts began. -/
def attempts : List Nat :=
  round.failures.map Failure.began ++ round.standing.began?.toList

/-- Its attempts that have failed. -/
def failed : List Failure := round.failures ++ round.standing.failure?.toList

/-- A round that goes by the settings. All attempts but the last have failed, each begins when
the pause after the one before it is over, and there is one more failure than retries exactly when
they were of no avail. -/
structure Fits (settings : LoaderSettings) (round : Round) : Prop where
  atLeast : 1 ≤ round.attempts.length
  atMost : round.attempts.length ≤ settings.maxRetry.toNat + 1
  paced : round.attempts <+:
    round.began :: round.failures.map fun failure =>
      Clock.wakeTime failure.ended settings.retryDelay
  back : round.standing.isBack = true ↔ round.standing.isSuccess = true ∨
    round.failed.length = settings.maxRetry.toNat + 1 ∧ settings.stopOnFailure = false
  exhausted : round.standing.isExhausted = true ↔
    round.failed.length = settings.maxRetry.toNat + 1 ∧ settings.stopOnFailure = true

end Round

/-- What the background task tells in the course of a log. -/
def told? : Nat × Event → Option WatcherState
  | (_, .published told) => some told
  | _ => none

/-- A view that cares neither for turns nor for failures. -/
theorem filterMap_failures {fact : Type} {view : Nat × Event → Option fact}
    (turned : ∀ time, view (time, .turned) = none)
    (failed : ∀ time error, view (time, .finished .watcher (.error error)) = none)
    (failures : List Failure) : (failures.flatMap Failure.log).filterMap view = [] := by
  rw [List.filterMap_eq_nil_iff]
  intro entry member
  obtain ⟨failure, -, entryOf⟩ := List.mem_flatMap.mp member
  simp only [Failure.log, List.mem_cons, List.not_mem_nil, or_false] at entryOf
  rcases entryOf with rfl | rfl
  · exact turned _
  · exact failed _ _

/-- A round tells that the background task refreshes, and that it waits once that is so. -/
theorem Round.filterMap_told? (round : Round) :
    round.log.filterMap told? =
      .refreshing :: if round.standing.isBack then [.idle] else [] := by
  obtain ⟨began, failures, standing⟩ := round
  have opening : told? (began, .published .refreshing) = some .refreshing := rfl
  unfold Round.log
  rw [List.filterMap_cons_some opening, List.filterMap_append,
    filterMap_failures (fun _ => rfl) (fun _ _ => rfl), List.nil_append]
  cases standing <;> rfl

/-- A round commits at most once. -/
theorem Round.commits_le_one (round : Round) :
    (round.log.filterMap commitOf?).length ≤ 1 := by
  obtain ⟨began, failures, standing⟩ := round
  have opening : commitOf? (began, .published .refreshing) = none := rfl
  unfold Round.log
  rw [List.filterMap_cons_none opening, List.filterMap_append,
    filterMap_failures (fun _ => rfl) (fun _ _ => rfl), List.nil_append]
  cases standing with
  | succeeded began ended target batch => exact Nat.le_refl 1
  | _ => exact Nat.zero_le 1

/-! ### Pace -/

/-- Attempts that have failed and the time of the next: the first is at once, and each later one
when the pause after the failure before it is over. -/
def OnPace (delay : Duration) (began : Nat) (failures : List Failure) (next : Nat) : Prop :=
  failures.map Failure.began ++ [next] =
    began :: failures.map fun failure => Clock.wakeTime failure.ended delay

theorem OnPace.start (delay : Duration) (began : Nat) : OnPace delay began [] began := rfl

theorem OnPace.fail {delay : Duration} {began next : Nat} {failures : List Failure}
    (pace : OnPace delay began failures next) (ended : Nat) (error : LoadError) :
    OnPace delay began (failures ++ [⟨next, ended, error⟩]) (Clock.wakeTime ended delay) := by
  unfold OnPace at pace ⊢
  rw [List.map_append, List.map_append, List.map_singleton, List.map_singleton, pace,
    List.cons_append]

namespace Round

variable {settings : LoaderSettings} {began next : Nat} {failures : List Failure}
  {standing : Standing}

theorem paced_of_next (pace : OnPace settings.retryDelay began failures next)
    (isNext : standing.began? = some next) :
    (Round.mk began failures standing).attempts <+:
      began :: failures.map fun failure => Clock.wakeTime failure.ended settings.retryDelay := by
  unfold attempts
  rw [isNext]
  exact pace ▸ List.prefix_rfl

/-- While an attempt is under way, or when it has not failed, there have been as many failures as
retries, or fewer. -/
theorem fits_of_next (pace : OnPace settings.retryDelay began failures next)
    (few : failures.length ≤ settings.maxRetry.toNat) (isNext : standing.began? = some next)
    (unfailed : standing.failure? = none) (isBack : standing.isBack = standing.isSuccess)
    (runs : standing.isExhausted = false) :
    Fits settings ⟨began, failures, standing⟩ := by
  have count : (Round.mk began failures standing).attempts.length = failures.length + 1 := by
    simp [attempts, isNext]
  have failed : (Round.mk began failures standing).failed.length = failures.length := by
    simp [Round.failed, unfailed]
  refine ⟨?_, ?_, paced_of_next pace isNext, ?_, ?_⟩
  · rw [count]
    exact Nat.le_add_left ..
  · rw [count]
    exact Nat.succ_le_succ few
  · rw [failed, isBack]
    exact ⟨.inl, fun either => either.resolve_right fun ⟨all, _⟩ => by omega⟩
  · rw [failed, runs]
    exact ⟨nofun, fun ⟨all, _⟩ => by omega⟩

/-- When the last attempt has failed as well, the settings say whether the background task ends. -/
theorem fits_of_last {last : Failure} (pace : OnPace settings.retryDelay began failures last.began)
    (all : failures.length = settings.maxRetry.toNat) (isLast : standing.failure? = some last)
    (isNext : standing.began? = some last.began) (unsuccessful : standing.isSuccess = false)
    (isBack : standing.isBack = !settings.stopOnFailure)
    (isExhausted : standing.isExhausted = settings.stopOnFailure) :
    Fits settings ⟨began, failures, standing⟩ := by
  have count : (Round.mk began failures standing).attempts.length = failures.length + 1 := by
    simp [attempts, isNext]
  have failed : (Round.mk began failures standing).failed.length = failures.length + 1 := by
    simp [Round.failed, isLast]
  refine ⟨?_, ?_, paced_of_next pace isNext, ?_, ?_⟩
  · rw [count]
    exact Nat.le_add_left ..
  · rw [count]
    exact Nat.succ_le_succ (Nat.le_of_eq all)
  · rw [failed, all, isBack, unsuccessful]
    simp
  · rw [failed, all, isExhausted]
    simp

/-- During a pause there has been a failure, and there may be a further attempt. -/
theorem fits_of_pause (pace : OnPace settings.retryDelay began failures next)
    (tried : 1 ≤ failures.length) (few : failures.length ≤ settings.maxRetry.toNat) :
    Fits settings ⟨began, failures, .pausing⟩ := by
  have count : (Round.mk began failures .pausing).attempts.length = failures.length := by
    simp [attempts, Standing.began?]
  have failed : (Round.mk began failures .pausing).failed.length = failures.length := by
    simp [Round.failed, Standing.failure?]
  refine ⟨?_, ?_, ?_, ?_, ?_⟩
  · rw [count]
    exact tried
  · rw [count]
    exact Nat.le_succ_of_le few
  · unfold OnPace at pace
    unfold attempts
    rw [← pace]
    exact (List.prefix_append_right_inj _).mpr List.nil_prefix
  · rw [failed]
    exact ⟨nofun, fun either => either.resolve_right fun ⟨all, _⟩ => by omega⟩
  · rw [failed]
    exact ⟨nofun, fun ⟨all, _⟩ => by omega⟩

end Round

/-! ### The story of a background task -/

/-- A round after which the background task waits again. -/
def Round.IsOver (settings : LoaderSettings) (round : Round) : Prop :=
  round.Fits settings ∧ round.standing.isBack = true

/-- How the log of a background task in a phase comes about: from rounds that are over, and then
from the one that it is in or that it has ended in. -/
inductive Story (settings : LoaderSettings) (now : Nat) (asked : Bool)
    (log : List (Nat × Event)) : Phase → Prop
  | starts {rounds : List Round} (past : ∀ round ∈ rounds, round.IsOver settings)
      (isLog : log = rounds.flatMap Round.log) : Story settings now asked log .starting
  | waits {rounds : List Round} {alarm : Alarm} (past : ∀ round ∈ rounds, round.IsOver settings)
      (isLog : log = rounds.flatMap Round.log) : Story settings now asked log (.waiting alarm)
  | attempts {rounds : List Round} {began next : Nat} {failures : List Failure}
      {attempt : UInt32} (past : ∀ round ∈ rounds, round.IsOver settings)
      (pace : OnPace settings.retryDelay began failures next)
      (count : failures.length = attempt.toNat) (allowed : attempt ≤ settings.maxRetry)
      (isLog : log = rounds.flatMap Round.log ++ Round.log ⟨began, failures, .attempting next⟩) :
      Story settings now asked log (.refreshing attempt)
  | pauses {rounds : List Round} {began wake : Nat} {failures : List Failure} {attempt : UInt32}
      (past : ∀ round ∈ rounds, round.IsOver settings)
      (pace : OnPace settings.retryDelay began failures wake)
      (count : failures.length = attempt.toNat + 1) (allowed : attempt < settings.maxRetry)
      (early : now ≤ wake)
      (isLog : log = rounds.flatMap Round.log ++ Round.log ⟨began, failures, .pausing⟩) :
      Story settings now asked log (.pausing attempt wake)
  | exhausts {rounds : List Round} {began : Nat} {failures : List Failure} {last : Failure}
      (past : ∀ round ∈ rounds, round.IsOver settings)
      (pace : OnPace settings.retryDelay began failures last.began)
      (count : failures.length = settings.maxRetry.toNat)
      (stops : settings.stopOnFailure = true)
      (isLog : log = rounds.flatMap Round.log ++ Round.log ⟨began, failures, .exhausted last⟩ ++
        [(last.ended, .published .stopped)]) :
      Story settings now asked log
        (.ended (.error (.retryExhausted (settings.maxRetry + 1) last.error)))
  | quits {rounds : List Round} {current : Option Round} {stopped : Nat}
      (isAsked : asked = true) (past : ∀ round ∈ rounds, round.IsOver settings)
      (cut : ∀ round ∈ current, round.Fits settings ∧ round.standing.isBack = false ∧
        round.standing.isExhausted = false)
      (isLog : log = (rounds ++ current.toList).flatMap Round.log ++
        [(stopped, .published .stopped)]) :
      Story settings now asked log (.ended (.ok ()))
  | breaks {reason : String} : Story settings now asked log (.brokeDown reason)

theorem Round.isOver_append {settings : LoaderSettings} {rounds : List Round} {last : Round}
    (past : ∀ round ∈ rounds, round.IsOver settings) (isOver : last.IsOver settings) :
    ∀ round ∈ rounds ++ [last], round.IsOver settings := by
  intro round member
  rcases List.mem_append.mp member with earlier | isLast
  · exact past round earlier
  · rw [List.mem_singleton.mp isLast]
    exact isOver

theorem flatMap_log_append (rounds : List Round) (last : Round) :
    (rounds ++ [last]).flatMap Round.log = rounds.flatMap Round.log ++ last.log := by
  rw [List.flatMap_append, List.flatMap_singleton]

namespace Story

variable {settings : LoaderSettings} {now : Nat} {asked : Bool} {log : List (Nat × Event)}

theorem early {attempt : UInt32} {wake : Nat}
    (story : Story settings now asked log (.pausing attempt wake)) : now ≤ wake := by
  cases story with
  | pauses past pace count allowed early isLog => exact early

/-- While nothing happens time may pass, though not beyond the end of a pause, and a request to
stop may come in. -/
theorem idle {phase : Phase} (story : Story settings now asked log phase) {later : Nat}
    {still : Bool} (timely : ∀ attempt wake, phase = .pausing attempt wake → later ≤ wake)
    (kept : asked = true → still = true) : Story settings later still log phase := by
  cases story with
  | starts past isLog => exact .starts past isLog
  | waits past isLog => exact .waits past isLog
  | attempts past pace count allowed isLog => exact .attempts past pace count allowed isLog
  | pauses past pace count allowed early isLog =>
    exact .pauses past pace count allowed (timely _ _ rfl) isLog
  | exhausts past pace count stops isLog => exact .exhausts past pace count stops isLog
  | quits isAsked past cut isLog => exact .quits (kept isAsked) past cut isLog
  | breaks => exact .breaks

/-- The timer goes off, and a round begins. -/
theorem due {alarm : Alarm} (story : Story settings now asked log (.waiting alarm)) :
    Story settings now asked (log ++ [(now, .published .refreshing)] ++ [(now, .turned)])
      (.refreshing 0) := by
  cases story with
  | waits past isLog =>
    refine .attempts past (.start settings.retryDelay now) rfl UInt32.zero_le ?_
    rw [isLog, List.append_assoc]
    rfl

/-- A pause is over, and the next attempt begins. -/
theorem resume {attempt : UInt32} {wake : Nat}
    (story : Story settings now asked log (.pausing attempt wake)) (reached : wake ≤ now) :
    Story settings now asked (log ++ [(now, .turned)]) (.refreshing (attempt + 1)) := by
  cases story with
  | @pauses rounds began wake failures attempt past pace count allowed early isLog =>
    have atOnce : wake = now := Nat.le_antisymm reached early
    have next : (attempt + 1).toNat = attempt.toNat + 1 := toNat_succ_of_lt allowed
    subst atOnce
    refine .attempts past pace (count.trans next.symm) ?_ ?_
    · rw [UInt32.le_iff_toNat_le, next]
      exact UInt32.lt_iff_toNat_lt.mp allowed
    · rw [isLog, List.append_assoc]
      simp [Round.log, Standing.log]

/-- An attempt succeeds, and the background task waits again. -/
theorem succeed {attempt : UInt32} (story : Story settings now asked log (.refreshing attempt))
    (target : Target) (batch : Staged) :
    Story settings now asked (log ++ [(now, .committed .watcher target batch),
      (now, .finished .watcher (.ok ()))] ++ [(now, .published .idle)]) .starting := by
  cases story with
  | @attempts rounds began next failures attempt past pace count allowed isLog =>
    have few : failures.length ≤ settings.maxRetry.toNat :=
      count ▸ UInt32.le_iff_toNat_le.mp allowed
    have fits : Round.Fits settings ⟨began, failures, .succeeded next now target batch⟩ :=
      Round.fits_of_next pace few rfl rfl rfl rfl
    refine .starts (Round.isOver_append past ⟨fits, rfl⟩) ?_
    rw [isLog, flatMap_log_append]
    simp [Round.log, Standing.log]

/-- An attempt fails and there may be a further one. -/
theorem fail {attempt : UInt32} (story : Story settings now asked log (.refreshing attempt))
    (more : attempt < settings.maxRetry) (error : LoadError) :
    Story settings now asked (log ++ [(now, .finished .watcher (.error error))])
      (.pausing attempt (Clock.wakeTime now settings.retryDelay)) := by
  cases story with
  | @attempts rounds began next failures attempt past pace count allowed isLog =>
    refine .pauses past (pace.fail now error) ?_ more (Clock.le_wakeTime ..) ?_
    · rw [List.length_append, count]
      rfl
    · rw [isLog, List.append_assoc]
      simp [Round.log, Standing.log, Failure.log]

/-- The last attempt fails, and the background task waits again. -/
theorem resign {attempt : UInt32} (story : Story settings now asked log (.refreshing attempt))
    (last : settings.maxRetry ≤ attempt) (goesOn : settings.stopOnFailure = false)
    (error : LoadError) :
    Story settings now asked (log ++ [(now, .finished .watcher (.error error))] ++
      [(now, .published .idle)]) .starting := by
  cases story with
  | @attempts rounds began next failures attempt past pace count allowed isLog =>
    have all : failures.length = settings.maxRetry.toNat := by
      rw [count, UInt32.le_antisymm allowed last]
    have fits : Round.Fits settings ⟨began, failures, .resigned ⟨next, now, error⟩⟩ :=
      Round.fits_of_last pace all rfl rfl rfl (by rw [goesOn]; rfl) (by rw [goesOn]; rfl)
    refine .starts (Round.isOver_append past ⟨fits, rfl⟩) ?_
    rw [isLog, flatMap_log_append]
    simp [Round.log, Standing.log, Failure.log]

/-- The last attempt fails, and the background task ends with its error. -/
theorem exhaust {attempt : UInt32} (story : Story settings now asked log (.refreshing attempt))
    (last : settings.maxRetry ≤ attempt) (stops : settings.stopOnFailure = true)
    (error : LoadError) :
    Story settings now asked (log ++ [(now, .finished .watcher (.error error))] ++
      [(now, .published .stopped)]) (.ended (.error (.retryExhausted (attempt + 1) error))) := by
  cases story with
  | @attempts rounds began next failures attempt past pace count allowed isLog =>
    have atLast : attempt = settings.maxRetry := UInt32.le_antisymm allowed last
    subst atLast
    refine @exhausts _ _ _ _ rounds began failures ⟨next, now, error⟩ past pace count stops ?_
    rw [isLog]
    simp [Round.log, Standing.log, Failure.log]

/-- The background task, asked to stop, ends. What it leaves is an attempt that it gives up. -/
theorem quit {phase : Phase} (story : Story settings now asked log phase)
    (running : phase.isRunning = true) (isAsked : asked = true) {left : List (Nat × Event)}
    (gaveUp : left = [] ∨
      left = [(now, .abandoned .watcher)] ∧ ∃ attempt, phase = .refreshing attempt) :
    Story settings now asked (log ++ left ++ [(now, .published .stopped)]) (.ended (.ok ())) := by
  cases story with
  | @starts rounds past isLog =>
    rcases gaveUp with rfl | ⟨-, attempt, refreshing⟩
    · refine @quits _ _ _ _ rounds none now isAsked past nofun ?_
      rw [isLog, Option.toList_none, List.append_nil, List.append_nil]
    · cases refreshing
  | @waits rounds alarm past isLog =>
    rcases gaveUp with rfl | ⟨-, attempt, refreshing⟩
    · refine @quits _ _ _ _ rounds none now isAsked past nofun ?_
      rw [isLog, Option.toList_none, List.append_nil, List.append_nil]
    · cases refreshing
  | @attempts rounds began next failures attempt past pace count allowed isLog =>
    have few : failures.length ≤ settings.maxRetry.toNat :=
      count ▸ UInt32.le_iff_toNat_le.mp allowed
    rcases gaveUp with rfl | ⟨rfl, -⟩
    · have fits : Round.Fits settings ⟨began, failures, .overtaken next⟩ :=
        Round.fits_of_next pace few rfl rfl rfl rfl
      refine @quits _ _ _ _ rounds (some ⟨began, failures, .overtaken next⟩) now isAsked past
        (fun round isCurrent => by cases isCurrent; exact ⟨fits, rfl, rfl⟩) ?_
      rw [isLog, Option.toList_some, flatMap_log_append, List.append_nil]
      rfl
    · have fits : Round.Fits settings ⟨began, failures, .givenUp next now⟩ :=
        Round.fits_of_next pace few rfl rfl rfl rfl
      refine @quits _ _ _ _ rounds (some ⟨began, failures, .givenUp next now⟩) now isAsked past
        (fun round isCurrent => by cases isCurrent; exact ⟨fits, rfl, rfl⟩) ?_
      rw [isLog, Option.toList_some, flatMap_log_append]
      simp [Round.log, Standing.log]
  | @pauses rounds began wake failures attempt past pace count allowed early isLog =>
    rcases gaveUp with rfl | ⟨-, attempt, refreshing⟩
    · have few : failures.length ≤ settings.maxRetry.toNat := by
        rw [count]
        exact UInt32.lt_iff_toNat_lt.mp allowed
      have fits : Round.Fits settings ⟨began, failures, .pausing⟩ :=
        Round.fits_of_pause pace (count ▸ Nat.le_add_left ..) few
      refine @quits _ _ _ _ rounds (some ⟨began, failures, .pausing⟩) now isAsked past
        (fun round isCurrent => by cases isCurrent; exact ⟨fits, rfl, rfl⟩) ?_
      rw [isLog, Option.toList_some, flatMap_log_append, List.append_nil]
    · cases refreshing
  | exhausts past pace count stops isLog => cases running
  | quits isAsked past cut isLog => cases running
  | breaks => cases running

end Story

/-! ### Runs -/

variable {sink : Type}

/-- The log of the background task comes about in the right way. -/
def HasStory (state : State sink) : Prop :=
  ∀ watcher, state.watcher = some watcher →
    Story state.settings state.now watcher.stopRequested state.watchLog watcher.phase

namespace HasStory

variable {actions : List Action} {action : Action} {state next : State sink}

theorem of_task {after : Watcher} (task : next.watcher = some after)
    (story : Story next.settings next.now after.stopRequested next.watchLog after.phase) :
    HasStory next := by
  intro watcher present
  rw [task] at present
  cases present
  exact story

/-- A cycle of the background task fails. -/
theorem of_failure (hasStory : HasStory state) (coherent : Coherent actions state)
    (settings : next.settings = state.settings) (running : state.cycles .watcher ≠ none)
    {error : LoadError} (task : next.watcher = state.watcherAfter .watcher (.error error))
    (now : next.now = state.now)
    (log : next.watchLog = state.watchLog ++ [(state.now, .finished .watcher (.error error))] ++
      state.tellings next.watcher) : HasStory next := by
  obtain ⟨watcher, attempt, present, phase, after⟩ :=
    coherent.watcherAfter_eq running (.error error)
  have told : watcher.published = .refreshing :=
    coherent.honest watcher present _ (by rw [phase]; rfl)
  have story := hasStory watcher present
  rw [phase] at story
  rw [after] at task
  refine of_task task ?_
  rw [settings, now, log, task, watcher.afterCycle_stopRequested]
  rcases watcher.afterCycle_error state.settings state.now attempt error with
    ⟨more, isAfter⟩ | ⟨last, stops, isAfter⟩ | ⟨last, goesOn, isAfter⟩
  · have same : (watcher.afterCycle state.settings state.now attempt (.error error)).published =
        watcher.published := by rw [isAfter]
    rw [State.tellings_of_published present same, isAfter, List.append_nil]
    exact story.fail more error
  · rw [isAfter, State.tellings_of_changed present (by rw [told]; nofun)]
    exact story.exhaust last stops error
  · rw [isAfter, State.tellings_of_changed present (by rw [told]; nofun)]
    exact story.resign last goesOn error

/-- A cycle of the background task commits and ends well. -/
theorem of_success (hasStory : HasStory state) (coherent : Coherent actions state)
    (settings : next.settings = state.settings) (running : state.cycles .watcher ≠ none)
    {target : Target} {batch : Staged} (task : next.watcher = state.watcherAfter .watcher (.ok ()))
    (now : next.now = state.now)
    (log : next.watchLog = state.watchLog ++ [(state.now, .committed .watcher target batch),
      (state.now, .finished .watcher (.ok ()))] ++ state.tellings next.watcher) :
    HasStory next := by
  obtain ⟨watcher, attempt, present, phase, after⟩ := coherent.watcherAfter_eq running (.ok ())
  have told : watcher.published = .refreshing :=
    coherent.honest watcher present _ (by rw [phase]; rfl)
  have story := hasStory watcher present
  rw [phase] at story
  rw [after] at task
  refine of_task task ?_
  rw [settings, now, log, task, watcher.afterCycle_stopRequested,
    State.tellings_of_changed present (by rw [told]; nofun)]
  exact story.succeed target batch

/-- The background task ends because it was asked to, and gives up the cycle it is in. -/
theorem of_quit (hasStory : HasStory state) (coherent : Coherent actions state)
    (settings : next.settings = state.settings) {watcher : Watcher} {left : List (Nat × Event)}
    (present : state.watcher = some watcher) (asked : watcher.stopRequested = true)
    (running : watcher.phase.isRunning = true)
    (task : next.watcher =
      some { watcher with phase := .ended (.ok ()), published := .stopped })
    (now : next.now = state.now)
    (gaveUp : left = [] ∧ state.cycles .watcher = none ∨
      left = [(state.now, .abandoned .watcher)] ∧ state.cycles .watcher ≠ none)
    (log : next.watchLog = state.watchLog ++ left ++ state.tellings
      (some { watcher with phase := .ended (.ok ()), published := .stopped })) :
    HasStory next := by
  have told : watcher.published ≠ .stopped :=
    (coherent.honest watcher present).ne_stopped running
  refine of_task task ?_
  rw [settings, now, log, State.tellings_of_changed present told]
  refine (hasStory watcher present).quit running asked ?_
  rcases gaveUp with ⟨nothing, -⟩ | ⟨cycle, inCycle⟩
  · exact .inl nothing
  · obtain ⟨other, attempt, same, phase⟩ := coherent.cycle inCycle
    rw [present] at same
    cases same
    exact .inr ⟨cycle, attempt, phase⟩

theorem step (hasStory : HasStory state) (coherent : Coherent actions state)
    (watch : WatchStep state action next) (settings : next.settings = state.settings) :
    HasStory next := by
  cases watch with
  | apart noCommit task now cycle log =>
    intro watcher present
    obtain ⟨old, before, same⟩ := SameTask.exists_before task present
    have story := hasStory old before
    rw [settings, now, log, same.phase]
    exact story.idle (fun attempt wake phase => Story.early (phase ▸ story)) same.kept
  | @arm watcher after next present phase isAfter task now cycle log =>
    have story := hasStory watcher present
    rw [phase] at story
    subst isAfter
    refine of_task task ?_
    rw [settings, now, log]
    cases story with
    | starts past isLog => exact .waits past isLog
  | @rearm watcher after alarm interval next present phase known unheard isAfter task now cycle
      log =>
    have story := hasStory watcher present
    rw [phase] at story
    subst isAfter
    refine of_task task ?_
    rw [settings, now, log]
    show Story _ _ _ _ (Phase.rearmed interval state.commits state.now)
    unfold Phase.rearmed
    split
    · cases story with
      | waits past isLog => exact .waits past isLog
    · exact .breaks
  | @due watcher after alarm next present phase heard reached isAfter task now cycle log =>
    have story := hasStory watcher present
    have told : watcher.published = .idle := coherent.honest watcher present _ (by rw [phase]; rfl)
    rw [phase] at story
    subst isAfter
    refine of_task task ?_
    rw [settings, now, log, State.tellings_of_changed present (by rw [told]; nofun)]
    exact story.due
  | @resume watcher after attempt wake next present phase reached isAfter task now cycle log =>
    have story := hasStory watcher present
    rw [phase] at story
    subst isAfter
    refine of_task task ?_
    rw [settings, now, log]
    exact story.resume reached
  | failed noCommit running task now cycle log =>
    exact hasStory.of_failure coherent settings running task now log
  | committed target batch running task now cycle log =>
    exact hasStory.of_success coherent settings running task now log
  | brokeDown noCommit running task now cycle log =>
    intro watcher present
    obtain ⟨old, before, rfl⟩ := Option.map_eq_some_iff.mp (task.symm.trans present)
    exact .breaks
  | @quit watcher after left next present asked running isAfter task now cycle gaveUp log =>
    subst isAfter
    exact hasStory.of_quit coherent settings present asked running task now gaveUp log
  | advance later quiet timely task now cycle log =>
    intro watcher present
    rw [task] at present
    rw [settings, now, log]
    refine (hasStory watcher present).idle (fun attempt wake phase => ?_) id
    exact timely wake (by rw [State.wake?_eq present, phase]; rfl)

theorem start (settings : LoaderSettings) (sinks : Target → sink) :
    HasStory (State.start settings sinks) := by
  intro watcher present
  unfold State.start at present
  split at present
  · cases present
    exact @Story.starts _ _ _ _ [] nofun rfl
  · cases present

end HasStory

section

variable [ConfigSink sink] {settings : LoaderSettings} {sinks : Target → sink}
  {actions : List Action} {state : State sink}

theorem hasStory_of_run (run : (State.start settings sinks).run? actions = some state) :
    HasStory state :=
  State.run_induction (fun _ state => HasStory state) (.start settings sinks)
    (fun run hasStory move => hasStory.step (coherent_of_run run) (.of_move move)
      move.settings_eq) run

end

end SecretRenewal.Loader
