/-
This file proves what the counts of attempts say. A run makes one call more than its policy allows
retries, or fewer, and when it gives up it tells how many calls it made, in 32 bits; the background
task does the same with the attempts of a round. So the count is true unless there were as many
calls as 32 bits have values. That takes the largest bound on retries and a failure at every one of
them, and then the count has come back to zero.
-/
import SecretRenewal.Proofs.Backoff.Attempts
import SecretRenewal.Proofs.Loader.Accounts

namespace SecretRenewal

/-- A count in 32 bits is true as long as there is a value for it. -/
theorem toNat_ofNat_eq_iff {count : Nat} :
    (UInt32.ofNat count).toNat = count ↔ count < UInt32.size := by
  rw [UInt32.toNat_ofNat']
  exact Nat.mod_eq_iff_lt (by decide)

namespace Backoff

section

variable {failure value : Type} {policy : Backoff} {setting : Setting failure value}

/-- A run that gives up counts on from where it began. -/
theorem attempts_executeFrom {attempt : UInt32} {now : Nat} {gaveUp : GivenUp failure}
    (gave : (executeFrom policy setting attempt now).result = .error gaveUp) :
    gaveUp.attempts =
      attempt + UInt32.ofNat (executeFrom policy setting attempt now).calls.length := by
  induction attempt, now using executeFrom.induct policy setting with
  | case1 attempt now value done =>
    rw [executeFrom_of_done done] at gave
    cases gave
  | case2 attempt now given ended =>
    rw [executeFrom_of_giveUp ended] at gave ⊢
    cases gave
    exact (eq_error_of_giveUp ended).2.1
  | case3 attempt now ended delay retried inductionHypothesis =>
    rw [executeFrom_of_retry retried] at gave ⊢
    rw [inductionHypothesis gave, List.length_cons, UInt32.ofNat_add, UInt32.add_assoc,
      UInt32.add_comm 1]
    rfl

/-- A run makes its calls up to the first that it ends with. -/
theorem exists_isLast (policy : Backoff) (setting : Setting failure value) :
    ∃ last, IsLast policy setting last ∧ (policy.executeWhen setting).calls.length = last + 1 ∧
      ComesTo policy setting last (policy.executeWhen setting).result := by
  obtain ⟨last, isLast, records⟩ : ∃ retries,
      IsLast policy setting ((0 : UInt32).toNat + retries) ∧
        Records policy setting (0 : UInt32).toNat retries (policy.executeWhen setting) :=
    records_executeFrom 0 0 rfl UInt32.zero_le nofun
  have comesTo := records.result
  rw [show (0 : UInt32).toNat + last = last from Nat.zero_add last] at isLast comesTo
  refine ⟨last, isLast, ?_, comesTo⟩
  rw [records.calls, List.length_map, List.length_range']

/-- A call after which a run goes on, as long as it may. -/
def FailsRetryably (setting : Setting failure value) (call : Nat) : Prop :=
  ∃ given, setting.operation call = .error given ∧ setting.retryable given = true

theorem not_endsAt_iff {call : Nat} :
    ¬EndsAt policy setting call ↔
      FailsRetryably setting call ∧ call ≠ policy.maxRetries.toNat := by
  unfold EndsAt FailsRetryably
  cases setting.operation call with
  | ok value => simp
  | error given => simp

/-- A run gets to its largest number of calls exactly if it may retry at all of them before. -/
theorem isLast_maxRetries_iff :
    IsLast policy setting policy.maxRetries.toNat ↔
      ∀ call < policy.maxRetries.toNat, FailsRetryably setting call := by
  constructor
  · exact fun isLast call before => (not_endsAt_iff.mp (isLast.first call before)).1
  · intro fails
    refine ⟨.inr (.inr rfl), fun call before => not_endsAt_iff.mpr ⟨fails call before, ?_⟩⟩
    exact Nat.ne_of_lt before

theorem IsLast.unique {first second : Nat} (isFirst : IsLast policy setting first)
    (isSecond : IsLast policy setting second) : first = second := by
  rcases Nat.lt_trichotomy first second with less | same | less
  · exact absurd isFirst.ends (isSecond.first first less)
  · exact same
  · exact absurd isSecond.ends (isFirst.first second less)

/-- What a run that gives up tells of the calls it made. -/
structure CountsCalls (policy : Backoff) (setting : Setting failure value) : Prop where
  atMost : (policy.executeWhen setting).calls.length ≤ policy.maxRetries.toNat + 1
  counted : ∀ gaveUp, (policy.executeWhen setting).result = .error gaveUp →
    gaveUp.attempts = UInt32.ofNat (policy.executeWhen setting).calls.length
  isTrue : ∀ gaveUp, (policy.executeWhen setting).result = .error gaveUp →
    (gaveUp.attempts.toNat = (policy.executeWhen setting).calls.length ↔
      (policy.executeWhen setting).calls.length < UInt32.size)
  full : (policy.executeWhen setting).calls.length = UInt32.size ↔
    policy.maxRetries.toNat + 1 = UInt32.size ∧
      ∀ call < policy.maxRetries.toNat, FailsRetryably setting call

theorem attempts_executeWhen {gaveUp : GivenUp failure}
    (gave : (policy.executeWhen setting).result = .error gaveUp) :
    gaveUp.attempts = UInt32.ofNat (policy.executeWhen setting).calls.length :=
  (attempts_executeFrom gave).trans (UInt32.zero_add _)

theorem countsCalls (policy : Backoff) (setting : Setting failure value) :
    CountsCalls policy setting := by
  obtain ⟨last, isLast, length, -⟩ := exists_isLast policy setting
  have atMost : last ≤ policy.maxRetries.toNat := isLast.le_maxRetries
  have bounded : policy.maxRetries.toNat < UInt32.size := policy.maxRetries.toNat_lt
  refine ⟨?_, fun gaveUp => attempts_executeWhen, fun gaveUp gave => ?_, ?_⟩
  · rw [length]
    exact Nat.succ_le_succ atMost
  · rw [attempts_executeWhen gave]
    exact toNat_ofNat_eq_iff
  · rw [length]
    constructor
    · intro full
      have same : last = policy.maxRetries.toNat := by omega
      exact ⟨by omega, isLast_maxRetries_iff.mp (same ▸ isLast)⟩
    · rintro ⟨largest, fails⟩
      rw [isLast.unique (isLast_maxRetries_iff.mpr fails)]
      exact largest

end

end Backoff

namespace Loader

/-- A round all of whose attempts have failed, and a count of them. -/
structure Round.CountedAs (round : Round) (settings : LoaderSettings) (count : UInt32) : Prop where
  all : round.attempts.length = settings.maxRetry.toNat + 1
  failed : round.failed.length = round.attempts.length
  counted : count = UInt32.ofNat round.attempts.length
  isTrue : count.toNat = round.attempts.length ↔ round.attempts.length < UInt32.size

/-- A background task that has given up counts the attempts of its last round. -/
theorem Story.exists_countedAs {settings : LoaderSettings} {now : Nat} {asked : Bool}
    {log : List (Nat × Event)} {count : UInt32} {error : LoadError}
    (story : Story settings now asked log (.ended (.error (.retryExhausted count error)))) :
    ∃ rounds round stopped,
      log = (rounds ++ [round]).flatMap Round.log ++ [(stopped, .published .stopped)] ∧
        round.CountedAs settings count := by
  cases story with
  | @exhausts rounds began failures last past pace all stops isLog =>
    have attempts : (Round.mk began failures (.exhausted last)).attempts.length =
        settings.maxRetry.toNat + 1 := by
      rw [← all]
      simp [Round.attempts, Standing.began?]
    have failed : (Round.mk began failures (.exhausted last)).failed.length =
        settings.maxRetry.toNat + 1 := by
      rw [← all]
      simp [Round.failed, Standing.failure?]
    have counted : settings.maxRetry + 1 = UInt32.ofNat (settings.maxRetry.toNat + 1) := by
      rw [UInt32.ofNat_add, UInt32.ofNat_toNat]
      rfl
    refine ⟨rounds, ⟨began, failures, .exhausted last⟩, last.ended, ?_, attempts,
      failed.trans attempts.symm, attempts ▸ counted, ?_⟩
    · rw [isLog, flatMap_log_append]
    · rw [attempts, counted]
      exact toNat_ofNat_eq_iff

/-- Whatever the bound on retries, a count of attempts is that of the calls made, in a run and in
the background task, unless there were as many as 32 bits have values. -/
theorem counts_are_true_below_size (maxRetries : UInt32) :
    (∀ (failure value : Type) (policy : Backoff) (setting : Backoff.Setting failure value),
      Backoff.CountsCalls { policy with maxRetries } setting) ∧
    ∀ (sink : Type) [ConfigSink sink] (settings : LoaderSettings) (sinks : Target → sink)
      (actions : List Action) (state : State sink) (watcher : Watcher) (count : UInt32)
      (error : LoadError),
      (State.start { settings with maxRetry := maxRetries } sinks).run? actions = some state →
      state.watcher = some watcher →
      watcher.phase = .ended (.error (.retryExhausted count error)) →
      ∃ rounds round stopped,
        state.watchLog =
          (rounds ++ [round]).flatMap Round.log ++ [(stopped, .published .stopped)] ∧
        round.CountedAs { settings with maxRetry := maxRetries } count := by
  refine ⟨fun _ _ policy setting => Backoff.countsCalls { policy with maxRetries } setting, ?_⟩
  intro sink _ settings sinks actions state watcher count error run present gaveUp
  have story := hasStory_of_run run watcher present
  rw [State.settings_of_run run, gaveUp] at story
  exact story.exists_countedAs

theorem counts_are_true_until_exhausted : ∃ state rounds round stopped,
    (State.start twoAttempts fun _ => Values.empty).run? untilExhausted = some state ∧
      state.watchLog =
        (rounds ++ [round]).flatMap Round.log ++ [(stopped, .published .stopped)] ∧
      round.CountedAs twoAttempts 2 := by
  have view : ((State.start twoAttempts fun _ => Values.empty).run? untilExhausted).map
      (fun state => state.watcher.map fun watcher => watcher.phase.outcome?) =
      some (some (some (.error (.retryExhausted 2 (.unavailable "b"))))) := by
    decide +kernel
  obtain ⟨state, run, isOutcome⟩ := Option.map_eq_some_iff.mp view
  obtain ⟨watcher, present, outcome⟩ := Option.map_eq_some_iff.mp isOutcome
  have gaveUp : watcher.phase = .ended (.error (.retryExhausted 2 (.unavailable "b"))) := by
    generalize watcher.phase = phase at outcome ⊢
    cases phase with
    | ended result => exact congrArg Phase.ended (Option.some.inj outcome)
    | _ => cases outcome
  obtain ⟨rounds, round, stopped, whole, counted⟩ :=
    (counts_are_true_below_size 1).2 Values twoAttempts (fun _ => Values.empty) untilExhausted
      state watcher 2 (.unavailable "b") run present gaveUp
  exact ⟨state, rounds, round, stopped, run, whole, counted⟩

end Loader

namespace Backoff

/-- After as many failures as 32 bits have values, a run tells that it made no call. -/
theorem count_starts_over :
    ((fixed 4294967295 Duration.zero).execute alwaysFailing).calls.length = 4294967296 ∧
      ((fixed 4294967295 Duration.zero).execute alwaysFailing).result = .error ⟨0, ()⟩ := by
  have largest : (fixed 4294967295 Duration.zero).maxRetries.toNat = 4294967295 := rfl
  obtain ⟨last, isLast, length, comesTo⟩ :=
    exists_isLast (fixed 4294967295 Duration.zero) alwaysFailing
  have isMost := isLast.unique (isLast_maxRetries_iff.mpr fun _ _ => ⟨(), rfl, rfl⟩)
  rw [isMost, largest] at length
  refine ⟨length, ?_⟩
  cases result : ((fixed 4294967295 Duration.zero).executeWhen alwaysFailing).result with
  | ok value =>
    rw [result] at comesTo
    cases comesTo
  | error gaveUp =>
    have attempts := attempts_executeWhen result
    rw [length] at attempts
    show ((fixed 4294967295 Duration.zero).executeWhen alwaysFailing).result = _
    rw [result]
    cases gaveUp
    cases attempts
    rfl

end Backoff

end SecretRenewal
