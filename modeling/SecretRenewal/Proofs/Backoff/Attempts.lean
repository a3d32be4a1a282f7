/-
This file follows a run through its calls. A run ends at the first call that gives a value, that
fails in a way not to be retried, or that is the last its policy allows. Whatever the calls give
there is such a call, so every run ends. Up to there each call is made once, with the wait that
belongs to the call before it in between, and what the run ends with comes from its last call.
-/
import SecretRenewal.Backoff.Execution
import SecretRenewal.Proofs.Backoff.Delays

namespace SecretRenewal.Backoff

variable {failure value : Type} (policy : Backoff) (setting : Setting failure value)

/-! ### One call -/

section

variable {policy setting} {attempt : UInt32}

theorem executeFrom_of_done {given : value} (done : setting.verdict policy attempt = .done given)
    (now : Nat) : executeFrom policy setting attempt now =
      ⟨.ok given, [now], [], now + setting.cost.millis attempt.toNat⟩ := by
  rw [executeFrom]
  split <;> simp_all

theorem executeFrom_of_giveUp {given : GivenUp failure}
    (gaveUp : setting.verdict policy attempt = .giveUp given) (now : Nat) :
    executeFrom policy setting attempt now =
      ⟨.error given, [now], [], now + setting.cost.millis attempt.toNat⟩ := by
  rw [executeFrom]
  split <;> simp_all

/-- The run after a call that is followed by a wait. -/
theorem executeFrom_of_retry {delay : Duration}
    (retried : setting.verdict policy attempt = .retry delay) (now : Nat) :
    executeFrom policy setting attempt now =
      let later := executeFrom policy setting (attempt + 1)
        (Clock.wakeTime (now + setting.cost.millis attempt.toNat) delay)
      { later with calls := now :: later.calls, waits := delay :: later.waits } := by
  rw [executeFrom]
  split <;> simp_all

end

/-! ### When calls are made -/

/-- What is waited for after a call that is not the last. -/
def waitAfter (call : Nat) : Duration := policy.delay (UInt32.ofNat call) (setting.draw call)

/-- When a call begins, in a run that gets so far: the first at once, and every other at the end
of the wait that begins with the end of the call before it. -/
def beginning : Nat → Nat
  | 0 => 0
  | call + 1 =>
    Clock.wakeTime (beginning call + setting.cost.millis call) (waitAfter policy setting call)

/-- When a call ends, in a run that gets so far. -/
def ending (call : Nat) : Nat := beginning policy setting call + setting.cost.millis call

theorem beginning_succ (call : Nat) :
    beginning policy setting (call + 1) =
      Clock.wakeTime (ending policy setting call) (waitAfter policy setting call) := rfl

/-! ### The last call -/

/-- Whether a run that makes a call ends with it. -/
def EndsAt (call : Nat) : Prop :=
  (∃ value, setting.operation call = .ok value) ∨
  (∃ failure, setting.operation call = .error failure ∧ setting.retryable failure = false) ∨
  call = policy.maxRetries.toNat

/-- The first call that a run ends with. -/
structure IsLast (call : Nat) : Prop where
  ends : EndsAt policy setting call
  first : ∀ earlier < call, ¬EndsAt policy setting earlier

/-- What a run comes to whose last call is known: the value of that call, or its failure and the
number of calls made, as far as 32 bits hold it. -/
def ComesTo (call : Nat) : Except (GivenUp failure) value → Prop
  | .ok value => setting.operation call = .ok value
  | .error gaveUp => setting.operation call = .error gaveUp.failure ∧
      (policy.maxRetries.toNat < 4294967295 → gaveUp.attempts.toNat = call + 1)

/-- The record of the part of a run from one call on, after which so many retries follow. -/
structure Records (first retries : Nat) (run : Execution failure value) : Prop where
  calls : run.calls = (List.range' first (retries + 1)).map (beginning policy setting)
  waits : run.waits = (List.range' first retries).map (waitAfter policy setting)
  ended : run.ended = ending policy setting (first + retries)
  result : ComesTo policy setting (first + retries) run.result

variable {policy setting}

theorem IsLast.le_maxRetries {call : Nat} (isLast : IsLast policy setting call) :
    call ≤ policy.maxRetries.toNat := by
  refine Nat.le_of_not_lt fun beyond => ?_
  exact isLast.first policy.maxRetries.toNat beyond (.inr (.inr rfl))

theorem eq_maxRetries_of_le {attempt : UInt32} (within : attempt ≤ policy.maxRetries)
    (reached : policy.maxRetries ≤ attempt) : attempt.toNat = policy.maxRetries.toNat :=
  congrArg UInt32.toNat (UInt32.le_antisymm within reached)

/-- The number of calls is one more than that of retries, as long as 32 bits hold it. -/
theorem toNat_attempts {attempt : UInt32} (within : attempt ≤ policy.maxRetries)
    (fits : policy.maxRetries.toNat < 4294967295) : (attempt + 1).toNat = attempt.toNat + 1 := by
  have atMost : attempt.toNat ≤ policy.maxRetries.toNat := UInt32.le_iff_toNat_le.mp within
  refine toNat_succ_of_lt (UInt32.lt_iff_toNat_lt.mpr (?_ : _ < (4294967295 : UInt32).toNat))
  exact Nat.lt_of_le_of_lt atMost fits

/-- Nothing follows the call a run ends with. -/
theorem Records.single {call now : Nat} (atTime : now = beginning policy setting call)
    {result : Except (GivenUp failure) value} (comesTo : ComesTo policy setting call result) :
    Records policy setting call 0 ⟨result, [now], [], now + setting.cost.millis call⟩ := by
  subst atTime
  exact ⟨rfl, rfl, rfl, comesTo⟩

/-- A call that the run does not end with comes before the rest with its wait. -/
theorem Records.cons {call retries : Nat} {rest : Execution failure value}
    (records : Records policy setting (call + 1) retries rest) :
    Records policy setting call (retries + 1)
      { rest with calls := beginning policy setting call :: rest.calls
                  waits := waitAfter policy setting call :: rest.waits } := by
  have shifted : call + (retries + 1) = call + 1 + retries := by omega
  refine ⟨?_, ?_, ?_, ?_⟩
  · rw [List.range'_succ, List.map_cons, ← records.calls]
  · rw [List.range'_succ, List.map_cons, ← records.waits]
  · rw [shifted]
    exact records.ended
  · rw [shifted]
    exact records.result

/-- A call after which the run retries is not one that it ends with. -/
theorem not_endsAt_of_retried {attempt : UInt32} {given : failure}
    (fails : setting.operation attempt.toNat = .error given)
    (below : attempt < policy.maxRetries) (retryable : setting.retryable given = true) :
    ¬EndsAt policy setting attempt.toNat := by
  rintro (⟨value, succeeds⟩ | ⟨other, failsSo, barred⟩ | exhausted)
  · rw [fails] at succeeds
    cases succeeds
  · rw [fails] at failsSo
    cases failsSo
    rw [retryable] at barred
    cases barred
  · exact Nat.ne_of_lt (UInt32.lt_iff_toNat_lt.mp below) exhausted

/-- A run from any call on gets to the first call it ends with, if it has not passed it. -/
theorem records_executeFrom (attempt : UInt32) (now : Nat)
    (atTime : now = beginning policy setting attempt.toNat)
    (within : attempt ≤ policy.maxRetries)
    (going : ∀ earlier < attempt.toNat, ¬EndsAt policy setting earlier) :
    ∃ retries, IsLast policy setting (attempt.toNat + retries) ∧
      Records policy setting attempt.toNat retries (executeFrom policy setting attempt now) := by
  -- Along the run's own recursion: that no call so far has ended it goes from each to the next.
  induction attempt, now using executeFrom.induct policy setting with
  | case1 attempt now value done =>
    have succeeds := eq_ok_of_done done
    rw [executeFrom_of_done done]
    exact ⟨0, ⟨.inl ⟨value, succeeds⟩, going⟩, .single atTime succeeds⟩
  | case2 attempt now given gaveUp =>
    obtain ⟨fails, count, reason⟩ := eq_error_of_giveUp gaveUp
    rw [executeFrom_of_giveUp gaveUp]
    refine ⟨0, ⟨?_, going⟩, .single atTime ⟨fails, count ▸ toNat_attempts within⟩⟩
    rcases reason with reached | final
    · exact .inr (.inr (eq_maxRetries_of_le within reached))
    · exact .inr (.inl ⟨given.failure, fails, final⟩)
  | case3 attempt now ended delay retried inductionHypothesis =>
    obtain ⟨failure, fails, below, retryable, isDelay⟩ := eq_error_of_retry retried
    have raised := toNat_succ_of_lt below
    have isWait : delay = waitAfter policy setting attempt.toNat := by
      rw [isDelay, waitAfter, UInt32.ofNat_toNat]
    have next : Clock.wakeTime ended delay = beginning policy setting (attempt + 1).toNat := by
      rw [raised, beginning_succ, ending, ← atTime, isWait]
    have withinNext : attempt + 1 ≤ policy.maxRetries := by
      rw [UInt32.le_iff_toNat_le, raised]
      exact UInt32.lt_iff_toNat_lt.mp below
    have goesOn : ∀ earlier < (attempt + 1).toNat, ¬EndsAt policy setting earlier := by
      intro earlier before
      rw [raised] at before
      rcases Nat.lt_succ_iff_lt_or_eq.mp before with before | rfl
      · exact going earlier before
      · exact not_endsAt_of_retried fails below retryable
    obtain ⟨retries, isLast, records⟩ := inductionHypothesis next withinNext goesOn
    rw [raised] at isLast records
    refine ⟨retries + 1, ?_, ?_⟩
    · rw [show attempt.toNat + (retries + 1) = attempt.toNat + 1 + retries by omega]
      exact isLast
    · have whole := records.cons
      rw [← atTime, ← isWait] at whole
      rw [executeFrom_of_retry retried]
      exact whole

/-- A run makes the calls up to the first it ends with and comes to what that one gives. -/
theorem calls_until_last (policy : Backoff) (setting : Setting failure value) :
    (∃ last, IsLast policy setting last ∧ last ≤ policy.maxRetries.toNat ∧
      (policy.executeWhen setting).calls =
        (List.range (last + 1)).map (beginning policy setting) ∧
      (policy.executeWhen setting).waits = (List.range last).map (waitAfter policy setting) ∧
      (policy.executeWhen setting).ended = ending policy setting last ∧
      ComesTo policy setting last (policy.executeWhen setting).result) ∧
    policy.execute setting = policy.executeWhen { setting with retryable := fun _ => true } := by
  refine ⟨?_, rfl⟩
  obtain ⟨last, isLast, records⟩ : ∃ retries,
      IsLast policy setting ((0 : UInt32).toNat + retries) ∧
        Records policy setting (0 : UInt32).toNat retries (policy.executeWhen setting) :=
    records_executeFrom 0 0 rfl UInt32.zero_le nofun
  rw [show (0 : UInt32).toNat + last = last from Nat.zero_add last] at isLast
  have ended := records.ended
  have result := records.result
  rw [show (0 : UInt32).toNat + last = last from Nat.zero_add last] at ended result
  refine ⟨last, isLast, isLast.le_maxRetries, ?_, ?_, ended, result⟩
  · rw [List.range_eq_range']
    exact records.calls
  · rw [List.range_eq_range']
    exact records.waits

/-! ### A wait of ninety years -/

def ninetyYearWait : Duration := Duration.ofSeconds 2838240000

/-- An operation that fails at once at every call. -/
def alwaysFailing : Setting Unit Unit where
  operation _ := .error ()
  cost := CallTimes.waiting 0
  retryable _ := true
  draw _ := .zero

/-- A wait is cut off after thirty years. -/
theorem wait_cut_off :
    ((fixed 1 ninetyYearWait).execute alwaysFailing).calls = [0, Clock.farOff] ∧
      ((fixed 1 ninetyYearWait).execute alwaysFailing).waits = [ninetyYearWait] ∧
      Clock.tickAfter 0 ninetyYearWait = 3 * Clock.farOff := by
  have retried : alwaysFailing.verdict (fixed 1 ninetyYearWait) 0 = .retry ninetyYearWait :=
    (afterCall_of_lt (by decide) rfl).trans
      (congrArg Verdict.retry (delay_fixed 1 ninetyYearWait 0 .zero))
  have gaveUp : alwaysFailing.verdict (fixed 1 ninetyYearWait) 1 = .giveUp ⟨2, ()⟩ :=
    afterCall_of_le (by decide)
  have whole : (fixed 1 ninetyYearWait).execute alwaysFailing =
      ⟨.error ⟨2, ()⟩, [0, Clock.farOff], [ninetyYearWait], Clock.farOff⟩ := by
    show executeFrom (fixed 1 ninetyYearWait) alwaysFailing 0 0 = _
    rw [executeFrom_of_retry retried, UInt32.zero_add, executeFrom_of_giveUp gaveUp]
    rfl
  rw [whole]
  exact ⟨rfl, rfl, by decide⟩

end SecretRenewal.Backoff
