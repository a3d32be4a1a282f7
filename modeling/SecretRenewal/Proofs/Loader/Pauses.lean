/-
This file follows the delay of a fixed policy into the background task. The policy gives the delay
back as it is, for every retry. So whenever the background task turns to a cycle, it either has just
told that it refreshes, or the cycle before has failed and the pause for exactly that delay, begun
with the failure, is over.
-/
import SecretRenewal.Proofs.Loader.Accounts

namespace SecretRenewal.Loader

/-! ### Turns -/

/-- What a turn of the background task at some time may follow. -/
inductive TurnsAfter (delay : Duration) (time : Nat) : Nat × Event → Prop
  | first : TurnsAfter delay time (time, .published .refreshing)
  | retry {failed : Nat} {error : LoadError} (paused : time = Clock.wakeTime failed delay) :
      TurnsAfter delay time (failed, .finished .watcher (.error error))

/-- In a log every turn is the first of its round or comes at the end of a pause. -/
def Spaced (delay : Duration) (log : List (Nat × Event)) : Prop :=
  ∀ before time rest, log = before ++ (time, .turned) :: rest →
    ∃ last, before.getLast? = some last ∧ TurnsAfter delay time last

namespace Spaced

variable {delay : Duration} {log : List (Nat × Event)}

theorem nil : Spaced delay [] := by
  intro before time rest isLog
  exact absurd isLog.symm (List.append_ne_nil_of_right_ne_nil before (List.cons_ne_nil _ rest))

theorem concat (spaced : Spaced delay log) {entry : Nat × Event}
    (turns : entry.2 = .turned → ∃ last, log.getLast? = some last ∧
      TurnsAfter delay entry.1 last) : Spaced delay (log ++ [entry]) := by
  intro before time rest isLog
  rcases List.eq_nil_or_concat rest with rfl | ⟨earlier, other, rfl⟩
  · obtain ⟨rfl, same⟩ := List.append_inj' isLog rfl
    cases same
    exact turns rfl
  · rw [List.concat_eq_append, ← List.cons_append, ← List.append_assoc] at isLog
    exact spaced before time earlier (List.append_inj' isLog rfl).1

theorem append (spaced : Spaced delay log) {more : List (Nat × Event)}
    (free : ∀ entry ∈ more, entry.2 ≠ .turned) : Spaced delay (log ++ more) := by
  induction more generalizing log with
  | nil => rwa [List.append_nil]
  | cons entry more inductionHypothesis =>
    rw [List.append_cons]
    refine inductionHypothesis (spaced.concat fun turned => ?_) fun later member =>
      free later (.tail _ member)
    exact absurd turned (free entry (.head _))

end Spaced

/-! ### Steps -/

/-- The next attempt is when the pause after the last failure is over. -/
theorem OnPace.of_last {delay : Duration} {began next : Nat} {earlier : List Failure}
    {last : Failure} (pace : OnPace delay began (earlier ++ [last]) next) :
    next = Clock.wakeTime last.ended delay := by
  have ends := congrArg List.getLast? pace
  rw [List.getLast?_concat, List.map_append, List.map_singleton, ← List.cons_append,
    List.getLast?_concat] at ends
  exact Option.some.inj ends

/-- The log during a pause ends with the failure that the pause began with. -/
theorem Story.last_of_pausing {settings : LoaderSettings} {now wake : Nat} {asked : Bool}
    {log : List (Nat × Event)} {attempt : UInt32}
    (story : Story settings now asked log (.pausing attempt wake)) (reached : wake ≤ now) :
    ∃ last, log.getLast? = some last ∧ TurnsAfter settings.retryDelay now last := by
  -- Time does not pass beyond the end of a pause, so the turn is at that very time.
  have atWake : now = wake := Nat.le_antisymm story.early reached
  cases story with
  | @pauses rounds began wake failures attempt past pace count allowed early isLog =>
    rcases List.eq_nil_or_concat failures with rfl | ⟨earlier, last, rfl⟩
    · exact absurd count.symm (Nat.succ_ne_zero _)
    · rw [List.concat_eq_append] at pace isLog
      have parts : log = rounds.flatMap Round.log ++ (began, .published .refreshing) ::
          (earlier.flatMap Failure.log ++ [(last.began, .turned)]) ++
          [(last.ended, .finished .watcher (.error last.error))] := by
        rw [isLog]
        simp [Round.log, Standing.log, Failure.log]
      rw [parts]
      exact ⟨_, List.getLast?_concat .., .retry (atWake.trans pace.of_last)⟩

variable {sink : Type} {actions : List Action} {action : Action} {state next : State sink}

theorem State.not_turned_of_tellings {state : State sink} {after : Option Watcher} :
    ∀ entry ∈ state.tellings after, entry.2 ≠ .turned := by
  intro entry member
  unfold State.tellings at member
  split at member
  · cases member
  · obtain ⟨watcher, -, rfl⟩ := List.mem_map.mp member
    nofun

theorem Spaced.step {delay : Duration} (spaced : Spaced delay state.watchLog)
    (isDelay : state.settings.retryDelay = delay) (coherent : Coherent actions state)
    (hasStory : HasStory state) (watch : WatchStep state action next) :
    Spaced delay next.watchLog := by
  cases watch with
  | apart _ _ _ _ log | arm _ _ _ _ _ _ log | rearm _ _ _ _ _ _ _ _ log | advance _ _ _ _ _ _ log =>
    rwa [log]
  | @due watcher after alarm next present phase heard reached isAfter task now cycle log =>
    have told : watcher.published = .idle := coherent.honest watcher present _ (by rw [phase]; rfl)
    subst isAfter
    rw [log, State.tellings_of_changed present (by rw [told]; nofun)]
    exact (spaced.append (by simp)).concat fun _ => ⟨_, List.getLast?_concat .., .first⟩
  | @resume watcher after attempt wake next present phase reached isAfter task now cycle log =>
    have story := hasStory watcher present
    rw [phase] at story
    rw [log, ← isDelay]
    rw [← isDelay] at spaced
    exact spaced.concat fun _ => story.last_of_pausing reached
  | failed _ _ _ _ _ log =>
    rw [log]
    exact (spaced.append (by simp)).append State.not_turned_of_tellings
  | committed target batch _ _ _ _ log =>
    rw [log]
    exact (spaced.append (by simp)).append State.not_turned_of_tellings
  | brokeDown _ _ _ _ _ log =>
    rw [log]
    exact spaced.append (by simp)
  | quit _ _ _ _ _ _ _ gaveUp log =>
    rw [log]
    refine (spaced.append ?_).append State.not_turned_of_tellings
    rcases gaveUp with ⟨rfl, -⟩ | ⟨rfl, -⟩
    · nofun
    · simp

/-! ### Runs -/

variable [ConfigSink sink] {settings : LoaderSettings} {sinks : Target → sink}

theorem spaced_of_run (run : (State.start settings sinks).run? actions = some state) :
    Spaced settings.retryDelay state.watchLog := by
  refine State.run_induction (fun _ state => Spaced settings.retryDelay state.watchLog) ?_
    (fun run spaced move => ?_) run
  · exact .nil
  · exact spaced.step (by rw [State.settings_of_run run]; rfl) (coherent_of_run run)
      (hasStory_of_run run) (.of_move move)

/-- A fixed policy gives its delay back as it is before every retry and whatever is drawn, the
policy of the background task gives the delay of the settings, and in every run the background task
turns to its next attempt when a wait for exactly that delay, begun with the failure of the last
one, is over. -/
theorem fixed_delays_are_exact
    (run : (State.start settings sinks).run? actions = some state) :
    (∀ maxRetries delay attempt draw,
      (Backoff.fixed maxRetries delay).delay attempt draw = delay) ∧
    (∀ attempt draw, (retryPolicy settings).delay attempt draw = settings.retryDelay) ∧
    Spaced settings.retryDelay state.watchLog :=
  ⟨Backoff.delay_fixed, delay_retryPolicy settings, spaced_of_run run⟩

/-- So it is where the background task comes to its end after a pause. -/
theorem fixed_delays_are_exact_until_exhausted : ∃ state,
    (State.start twoAttempts fun _ => Values.empty).run? untilExhausted = some state ∧
      state.watchLog.filterMap failedAt? = [45000, 46000] ∧
      state.watchLog.filterMap turnedAt? = [0, 45000, 46000] ∧
      Spaced (Duration.ofSeconds 1) state.watchLog := by
  have view : ((State.start twoAttempts fun _ => Values.empty).run? untilExhausted).map
      (fun state => (state.watchLog.filterMap failedAt?, state.watchLog.filterMap turnedAt?)) =
      some ([45000, 46000], [0, 45000, 46000]) := by
    decide +kernel
  obtain ⟨state, run, seen⟩ := Option.map_eq_some_iff.mp view
  obtain ⟨failed, turned⟩ := Prod.mk.inj seen
  exact ⟨state, run, failed, turned, (fixed_delays_are_exact run).2.2⟩

/-- The background task that is to pause for ninety years, as its policy says, tries again after
thirty. -/
theorem exact_delay_cut_off :
    (retryPolicy ninetyYears).delay 0 .zero = Duration.ofSeconds 2838240000 ∧
    ∃ state,
      (State.start ninetyYears fun _ => Values.empty).run?
          [.arm, .due, .launch, .enter .watcher, .tokenReturned .watcher (.error .rateLimited),
            .advance Clock.farOff, .resume] = some state ∧
        state.watchLog.filterMap failedAt? = [0] ∧
        state.watchLog.filterMap turnedAt? = [0, Clock.farOff] ∧
        Clock.farOff < Clock.tickAfter 0 (Duration.ofSeconds 2838240000) := by
  have view : ((State.start ninetyYears fun _ => Values.empty).run?
        [.arm, .due, .launch, .enter .watcher, .tokenReturned .watcher (.error .rateLimited),
          .advance Clock.farOff, .resume]).map
      (fun state => (state.watchLog.filterMap failedAt?, state.watchLog.filterMap turnedAt?)) =
      some ([0], [0, Clock.farOff]) := by
    decide +kernel
  obtain ⟨state, run, seen⟩ := Option.map_eq_some_iff.mp view
  obtain ⟨failed, turned⟩ := Prod.mk.inj seen
  exact ⟨delay_retryPolicy ninetyYears 0 .zero, state, run, failed, turned, by decide⟩

end SecretRenewal.Loader
