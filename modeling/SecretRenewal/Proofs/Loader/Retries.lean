/-
This file compares the rounds of the background task with the runs of its retry policy. The log of
the background task never goes back in time. A round whose last attempt has ended is a run of the
policy whose calls give what the attempts gave and take as long as they took: it makes its calls
when the attempts began, waits for the retry delay between them, and ends when the last attempt did
with what that one gave. So whatever holds of a run under the policy holds of these rounds.
-/
import SecretRenewal.Proofs.Backoff.Attempts
import SecretRenewal.Proofs.Loader.Rounds

namespace SecretRenewal.Loader

variable {sink : Type}

/-! ### The order of the log -/

/-- The entries in the log of the background task are in the order of their times, and none is
from the future. -/
def State.InOrder (state : State sink) : Prop :=
  (state.watchLog.map Prod.fst ++ [state.now]).Pairwise (· ≤ ·)

/-- What the background task tells, it tells now. -/
theorem State.time_of_mem_tellings {state : State sink} {after : Option Watcher}
    {entry : Nat × Event} (member : entry ∈ state.tellings after) : entry.1 = state.now := by
  unfold tellings at member
  split at member
  · cases member
  · obtain ⟨watcher, -, rfl⟩ := List.mem_map.mp member
    rfl

namespace WatchStep

variable {state next : State sink} {action : Action}

/-- What a step adds to the log of the background task happens now. -/
theorem exists_entries (watch : WatchStep state action next) :
    ∃ entries, next.watchLog = state.watchLog ++ entries ∧
      ∀ entry ∈ entries, entry.1 = state.now := by
  have told {after : Option Watcher} : ∀ entry ∈ state.tellings after, entry.1 = state.now :=
    fun entry => State.time_of_mem_tellings
  cases watch with
  | apart noCommit task now cycle log => exact ⟨[], by rw [log, List.append_nil], nofun⟩
  | arm present phase isAfter task now cycle log =>
    exact ⟨[], by rw [log, List.append_nil], nofun⟩
  | rearm present phase known unheard isAfter task now cycle log =>
    exact ⟨[], by rw [log, List.append_nil], nofun⟩
  | due present phase heard reached isAfter task now cycle log =>
    exact ⟨_, log.trans (List.append_assoc ..), List.forall_mem_append.mpr ⟨told, by simp⟩⟩
  | resume present phase reached isAfter task now cycle log =>
    exact ⟨_, log, by simp⟩
  | failed noCommit running task now cycle log cause =>
    exact ⟨_, log.trans (List.append_assoc ..), List.forall_mem_append.mpr ⟨by simp, told⟩⟩
  | committed target batch running task now cycle log =>
    exact ⟨_, log.trans (List.append_assoc ..), List.forall_mem_append.mpr ⟨by simp, told⟩⟩
  | brokeDown noCommit running task now cycle log cause =>
    exact ⟨_, log, by simp⟩
  | quit present asked running isAfter task now cycle gaveUp log =>
    refine ⟨_, log.trans (List.append_assoc ..), List.forall_mem_append.mpr ⟨?_, told⟩⟩
    rcases gaveUp with ⟨rfl, -⟩ | ⟨rfl, -⟩
    · nofun
    · simp
  | advance later quiet timely task now cycle log =>
    exact ⟨[], by rw [log, List.append_nil], nofun⟩

end WatchStep

namespace State.InOrder

variable {state next : State sink} {action : Action}

theorem step (inOrder : state.InOrder) (watch : WatchStep state action next)
    (later : state.now ≤ next.now) : next.InOrder := by
  obtain ⟨entries, log, current⟩ := watch.exists_entries
  unfold InOrder at inOrder ⊢
  rw [List.pairwise_append] at inOrder
  obtain ⟨ordered, -, past⟩ := inOrder
  have before : ∀ time ∈ state.watchLog.map Prod.fst, time ≤ state.now :=
    fun time member => past time member state.now (List.mem_singleton_self _)
  have added : ∀ time ∈ entries.map Prod.fst, time = state.now := by
    intro time member
    obtain ⟨entry, isEntry, rfl⟩ := List.mem_map.mp member
    exact current entry isEntry
  rw [log, List.map_append, List.append_assoc, List.pairwise_append, List.pairwise_append]
  refine ⟨ordered, ⟨?_, List.pairwise_singleton .., ?_⟩, ?_⟩
  · refine List.pairwise_of_forall_mem_list fun first isFirst second isSecond => ?_
    exact Nat.le_of_eq ((added first isFirst).trans (added second isSecond).symm)
  · intro time member last isLast
    rw [added time member, List.mem_singleton.mp isLast]
    exact later
  · intro time member other isLater
    rcases List.mem_append.mp isLater with isAdded | isNow
    · rw [added other isAdded]
      exact before time member
    · rw [List.mem_singleton.mp isNow]
      exact Nat.le_trans (before time member) later

theorem start (settings : LoaderSettings) (sinks : Target → sink) :
    (State.start settings sinks).InOrder := by
  have empty : (State.start settings sinks).watchLog = [] := rfl
  unfold InOrder
  rw [empty]
  exact List.pairwise_singleton ..

theorem of_run [ConfigSink sink] {settings : LoaderSettings} {sinks : Target → sink}
    {actions : List Action} {state : State sink}
    (run : (State.start settings sinks).run? actions = some state) : state.InOrder :=
  State.run_induction (fun _ state => state.InOrder) (.start settings sinks)
    (fun _ inOrder move => inOrder.step (.of_move move) move.now_le) run

end State.InOrder

/-! ### Attempts that have ended -/

/-- An attempt that has ended. -/
structure Attempt where
  began : Nat
  ended : Nat
  result : Except LoadError Unit

def Failure.attempt (failure : Failure) : Attempt :=
  ⟨failure.began, failure.ended, .error failure.error⟩

/-- The attempt that a round has ended with. -/
def Standing.last? : Standing → Option Attempt
  | succeeded began ended _ _ => some ⟨began, ended, .ok ()⟩
  | resigned last | exhausted last => some last.attempt
  | _ => none

/-- No attempt ends before it has begun. -/
structure Round.Forward (round : Round) (last : Attempt) : Prop where
  failures : ∀ failure ∈ round.failures, failure.began ≤ failure.ended
  last : last.began ≤ last.ended

theorem Failure.forward_of_sublist {failure : Failure} {log : List (Nat × Event)}
    (ordered : (log.map Prod.fst).Pairwise (· ≤ ·)) (part : failure.log.Sublist log) :
    failure.began ≤ failure.ended := by
  have pair := ordered.sublist (part.map Prod.fst)
  exact (List.pairwise_pair.mp pair)

theorem Round.forward_of_ordered {round : Round} {last : Attempt}
    (isLast : round.standing.last? = some last)
    (ordered : (round.log.map Prod.fst).Pairwise (· ≤ ·)) : round.Forward last := by
  obtain ⟨began, failures, standing⟩ := round
  have rest : (failures.flatMap Failure.log ++ standing.log).Sublist
      (Round.log ⟨began, failures, standing⟩) := List.sublist_cons_self ..
  refine ⟨fun failure member => ?_, ?_⟩
  · refine Failure.forward_of_sublist ordered (.trans ?_ ((List.sublist_append_left ..).trans rest))
    exact List.sublist_flatten_of_mem (List.mem_map_of_mem member)
  · have inner := ordered.sublist (((List.sublist_append_right ..).trans rest).map Prod.fst)
    cases standing with
    | succeeded began ended target batch =>
      cases isLast
      exact (List.pairwise_cons.mp inner).1 _ (List.mem_cons_self ..)
    | resigned failure =>
      cases isLast
      exact Failure.forward_of_sublist inner (List.sublist_append_left ..)
    | exhausted failure =>
      cases isLast
      exact Failure.forward_of_sublist inner (List.Sublist.refl _)
    | _ => cases isLast

/-! ### The run that a round is -/

namespace Round

/-- The attempt with a number, counted from zero. -/
def attempt (round : Round) (last : Attempt) (call : Nat) : Attempt :=
  (round.failures.map Failure.attempt).getD call last

/-- An operation whose calls go as the attempts of a round did. -/
def setting (round : Round) (last : Attempt) : Backoff.Setting LoadError Unit where
  operation call := (round.attempt last call).result
  cost := ⟨fun call => (round.attempt last call).ended - (round.attempt last call).began⟩
  retryable _ := true
  draw _ := .zero

/-- The run of the retry policy that begins when a round does. -/
def run (settings : LoaderSettings) (round : Round) (last : Attempt) :
    Backoff.Execution LoadError Unit :=
  (retryPolicy settings).executeFrom (round.setting last) 0 round.began

/-- The record of a round as if it were a run. -/
def execution (settings : LoaderSettings) (round : Round) (last : Attempt) :
    Backoff.Execution LoadError Unit where
  result := last.result.mapError fun error => ⟨settings.maxRetry + 1, error⟩
  calls := round.attempts
  waits := List.replicate round.failures.length settings.retryDelay
  ended := last.ended

end Round

theorem OnPace.uncons {delay : Duration} {began next : Nat} {failure : Failure}
    {failures : List Failure} (pace : OnPace delay began (failure :: failures) next) :
    failure.began = began ∧ OnPace delay (Clock.wakeTime failure.ended delay) failures next := by
  obtain ⟨first, rest⟩ := List.cons.inj pace
  exact ⟨first, rest⟩

namespace Round

variable {settings : LoaderSettings} {round : Round} {last : Attempt}

theorem attempt_of_failure {behind ahead : List Failure} {failure : Failure}
    (parts : round.failures = behind ++ failure :: ahead) :
    round.attempt last behind.length = failure.attempt := by
  unfold attempt
  rw [parts, List.map_append, List.map_cons]
  simp

theorem attempt_of_last : round.attempt last round.failures.length = last := by
  unfold attempt
  simp

/-- From a failure on, the run makes a call for each failure and then comes to the last one. -/
theorem executeFrom_of_failures {behind ahead : List Failure} {attempt : UInt32} {now next : Nat}
    (parts : round.failures = behind ++ ahead) (count : behind.length = attempt.toNat)
    (few : round.failures.length ≤ settings.maxRetry.toNat)
    (forward : ∀ failure ∈ ahead, failure.began ≤ failure.ended)
    (pace : OnPace settings.retryDelay now ahead next) :
    ∃ final : UInt32, final.toNat = round.failures.length ∧
      (retryPolicy settings).executeFrom (round.setting last) attempt now =
        let later := (retryPolicy settings).executeFrom (round.setting last) final next
        { later with
          calls := ahead.map Failure.began ++ later.calls
          waits := List.replicate ahead.length settings.retryDelay ++ later.waits } := by
  -- Over the failures still to come; those behind are as many as the calls made so far.
  induction ahead generalizing behind attempt now with
  | nil =>
    rw [List.append_nil] at parts
    have isNext : now = next := (List.cons.inj pace).1.symm
    exact ⟨attempt, by rw [parts, count], by rw [isNext]; rfl⟩
  | cons failure ahead inductionHypothesis =>
    obtain ⟨rfl, paced⟩ := pace.uncons
    have isAttempt : round.attempt last attempt.toNat = failure.attempt :=
      count ▸ attempt_of_failure parts
    have below : attempt < (retryPolicy settings).maxRetries := by
      refine UInt32.lt_iff_toNat_lt.mpr (Nat.lt_of_lt_of_le ?_ few)
      rw [parts, List.length_append, List.length_cons, ← count]
      omega
    have retried : (round.setting last).verdict (retryPolicy settings) attempt =
        .retry settings.retryDelay := by
      unfold Backoff.Setting.verdict setting
      simp only [isAttempt]
      exact (Backoff.afterCall_of_lt below rfl).trans
        (congrArg Backoff.Verdict.retry (delay_retryPolicy ..))
    have ended : failure.began + (round.setting last).cost.millis attempt.toNat =
        failure.ended := by
      unfold setting
      simp only [isAttempt]
      exact Nat.add_sub_cancel' (forward failure (List.mem_cons_self ..))
    have moved : round.failures = (behind ++ [failure]) ++ ahead := by
      rw [parts, List.append_assoc]
      rfl
    have counted : (behind ++ [failure]).length = (attempt + 1).toNat := by
      rw [List.length_append, toNat_succ_of_lt below, count]
      rfl
    obtain ⟨final, isFinal, rest⟩ := inductionHypothesis moved counted
      (fun other member => forward other (List.mem_cons_of_mem _ member)) paced
    refine ⟨final, isFinal, ?_⟩
    rw [Backoff.executeFrom_of_retry retried, ended, rest]
    rfl

theorem attempts_of_last (isLast : round.standing.last? = some last) :
    round.attempts = round.failures.map Failure.began ++ [last.began] := by
  unfold attempts
  cases standing : round.standing <;> rw [standing] at isLast <;> cases isLast <;> rfl

/-- The attempts of a round that has ended are paced up to the last. -/
theorem Fits.onPace (fits : round.Fits settings) (isLast : round.standing.last? = some last) :
    OnPace settings.retryDelay round.began round.failures last.began := by
  have paced := fits.paced
  rw [attempts_of_last isLast] at paced
  exact paced.eq_of_length (by simp)

theorem Fits.few (fits : round.Fits settings) (isLast : round.standing.last? = some last) :
    round.failures.length ≤ settings.maxRetry.toNat := by
  have atMost := fits.atMost
  rw [attempts_of_last isLast, List.length_append, List.length_map] at atMost
  exact Nat.le_of_succ_le_succ atMost

/-- A round only ends with a failure when there may be no further attempt. -/
theorem Fits.all (fits : round.Fits settings) (isLast : round.standing.last? = some last)
    {error : LoadError} (failed : last.result = .error error) :
    round.failures.length = settings.maxRetry.toNat := by
  obtain ⟨began, failures, standing⟩ := round
  cases standing with
  | succeeded began ended target batch =>
    cases isLast
    cases failed
  | resigned failure =>
    obtain ⟨all, -⟩ := (fits.back.mp rfl).resolve_left nofun
    simpa [Round.failed, Standing.failure?] using all
  | exhausted failure =>
    obtain ⟨all, -⟩ := fits.exhausted.mp rfl
    simpa [Round.failed, Standing.failure?] using all
  | _ => cases isLast

/-- A round that has ended is a run of the retry policy. -/
theorem run_eq (fits : round.Fits settings) (isLast : round.standing.last? = some last)
    (forward : round.Forward last) :
    round.run settings last = round.execution settings last := by
  obtain ⟨final, isFinal, whole⟩ :=
    @executeFrom_of_failures settings round last [] round.failures 0 round.began last.began rfl rfl
      (fits.few isLast) forward.failures (fits.onPace isLast)
  have isAttempt : round.attempt last final.toNat = last := isFinal ▸ attempt_of_last
  have ended : last.began + (round.setting last).cost.millis final.toNat = last.ended := by
    unfold setting
    simp only [isAttempt]
    exact Nat.add_sub_cancel' forward.last
  have verdict : (round.setting last).verdict (retryPolicy settings) final =
      (retryPolicy settings).afterCall (fun _ => true) .zero final last.result := by
    unfold Backoff.Setting.verdict setting
    simp only [isAttempt]
  unfold run execution
  rw [whole, attempts_of_last isLast]
  cases result : last.result with
  | ok done =>
    rw [result] at verdict
    rw [Backoff.executeFrom_of_done verdict, ended]
    dsimp only
    rw [List.append_nil]
    rfl
  | error error =>
    have atLast : final = settings.maxRetry :=
      UInt32.toNat_inj.mp (isFinal.trans (fits.all isLast result))
    have reached : (retryPolicy settings).maxRetries ≤ final := UInt32.le_of_eq atLast.symm
    rw [result, Backoff.afterCall_of_le reached] at verdict
    rw [Backoff.executeFrom_of_giveUp verdict, ended, atLast]
    dsimp only
    rw [List.append_nil]
    rfl

end Round

/-! ### Every run of a loader -/

/-- The rounds that make up the log of a background task, and how the last one went if it ended
with an error. -/
theorem Story.exists_rounds {settings : LoaderSettings} {now : Nat} {asked : Bool}
    {log : List (Nat × Event)} {phase : Phase} (story : Story settings now asked log phase)
    (unbroken : ∀ reason, phase ≠ .brokeDown reason) :
    ∃ (rounds : List Round) (stopped : Option Nat),
      log = rounds.flatMap Round.log ++
        stopped.toList.map (fun time => (time, .published .stopped)) ∧
      (∀ round ∈ rounds, round.Fits settings) ∧
      ∀ count error, phase = .ended (.error (.retryExhausted count error)) →
        count = settings.maxRetry + 1 ∧ ∃ round last, rounds.getLast? = some round ∧
          round.standing.last? = some last ∧ last.result = .error error := by
  have fitting {rounds : List Round} (past : ∀ round ∈ rounds, round.IsOver settings)
      {current : Round} (fits : current.Fits settings) :
      ∀ round ∈ rounds ++ [current], round.Fits settings := by
    refine List.forall_mem_append.mpr ⟨fun round member => (past round member).1, ?_⟩
    exact List.forall_mem_singleton.mpr fits
  cases story with
  | @starts rounds past isLog =>
    exact ⟨rounds, none, by simpa using isLog, fun round member => (past round member).1, nofun⟩
  | @waits rounds alarm past isLog =>
    exact ⟨rounds, none, by simpa using isLog, fun round member => (past round member).1, nofun⟩
  | @attempts rounds began next failures attempt past pace count allowed isLog =>
    have few := count ▸ UInt32.le_iff_toNat_le.mp allowed
    refine ⟨rounds ++ [⟨began, failures, .attempting next⟩], none, ?_,
      fitting past (Round.fits_of_next pace few rfl rfl rfl rfl), nofun⟩
    rw [isLog, flatMap_log_append]
    simp
  | @pauses rounds began wake failures attempt past pace count allowed early isLog =>
    have few : failures.length ≤ settings.maxRetry.toNat := by
      rw [count]
      exact UInt32.lt_iff_toNat_lt.mp allowed
    refine ⟨rounds ++ [⟨began, failures, .pausing⟩], none, ?_,
      fitting past (Round.fits_of_pause pace (count ▸ Nat.le_add_left ..) few), nofun⟩
    rw [isLog, flatMap_log_append]
    simp
  | @exhausts rounds began failures last past pace all stops isLog =>
    have fits : Round.Fits settings ⟨began, failures, .exhausted last⟩ :=
      Round.fits_of_last pace all rfl rfl rfl (by rw [stops]; rfl) (by rw [stops]; rfl)
    refine ⟨rounds ++ [⟨began, failures, .exhausted last⟩], some last.ended, ?_,
      fitting past fits, ?_⟩
    · rw [isLog, flatMap_log_append]
      rfl
    · intro count error gaveUp
      cases gaveUp
      exact ⟨rfl, _, _, List.getLast?_concat, rfl, rfl⟩
  | @quits rounds current stopped isAsked past cut isLog =>
    refine ⟨rounds ++ current.toList, some stopped, isLog, ?_, nofun⟩
    refine List.forall_mem_append.mpr ⟨fun round member => (past round member).1, ?_⟩
    exact fun round member => (cut round (Option.mem_toList.mp member)).1
  | @breaks reason => exact absurd rfl (unbroken reason)

theorem State.InOrder.forward {state : State sink} (inOrder : state.InOrder) {rounds : List Round}
    {rest : List (Nat × Event)} (whole : state.watchLog = rounds.flatMap Round.log ++ rest)
    {round : Round} (member : round ∈ rounds) {last : Attempt}
    (isLast : round.standing.last? = some last) : round.Forward last := by
  have ordered : (state.watchLog.map Prod.fst).Pairwise (· ≤ ·) :=
    (List.pairwise_append.mp inOrder).1
  have part : round.log.Sublist state.watchLog := by
    rw [whole]
    refine .trans ?_ (List.sublist_append_left ..)
    exact List.sublist_flatten_of_mem (List.mem_map_of_mem member)
  exact Round.forward_of_ordered isLast (ordered.sublist (part.map Prod.fst))

/-- Whatever happens to a loader, each round that its background task has ended is a run of the
retry policy, and the background task gives up with what the run of its last round gives up with. -/
theorem rounds_are_runs [ConfigSink sink] {settings : LoaderSettings} {sinks : Target → sink}
    {actions : List Action} {state : State sink} {watcher : Watcher}
    (run : (State.start settings sinks).run? actions = some state)
    (present : state.watcher = some watcher)
    (unbroken : ∀ reason, watcher.phase ≠ .brokeDown reason) :
    ∃ (rounds : List Round) (stopped : Option Nat),
      state.watchLog = rounds.flatMap Round.log ++
        stopped.toList.map (fun time => (time, .published .stopped)) ∧
      (∀ round ∈ rounds, ∀ last, round.standing.last? = some last →
        round.run settings last = round.execution settings last) ∧
      ∀ count error, watcher.phase = .ended (.error (.retryExhausted count error)) →
        ∃ round last, rounds.getLast? = some round ∧ round.standing.last? = some last ∧
          (round.run settings last).result = .error ⟨count, error⟩ := by
  have story := hasStory_of_run run watcher present
  rw [State.settings_of_run run] at story
  obtain ⟨rounds, stopped, whole, fits, gaveUp⟩ := story.exists_rounds unbroken
  have runs : ∀ round ∈ rounds, ∀ last, round.standing.last? = some last →
      round.run settings last = round.execution settings last := by
    intro round member last isLast
    exact Round.run_eq (fits round member) isLast
      ((State.InOrder.of_run run).forward whole member isLast)
  refine ⟨rounds, stopped, whole, runs, fun count error ended => ?_⟩
  obtain ⟨rfl, round, last, isRound, isLast, failed⟩ := gaveUp count error ended
  refine ⟨round, last, isRound, isLast, ?_⟩
  rw [runs round (List.mem_of_getLast? isRound) last isLast]
  unfold Round.execution
  rw [failed]
  rfl

end SecretRenewal.Loader
