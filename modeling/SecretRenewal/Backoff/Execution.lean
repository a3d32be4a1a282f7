/-
This file runs an operation under a retry policy. Each call of the operation either gives a
value or fails; after a failure the run waits and calls again, until a value comes, the failure
is one that is not to be retried, or the policy allows no further retry. The record of a run
lists when each call began and what was waited for between the calls.
-/
import SecretRenewal.Backoff.Policy
import SecretRenewal.Clock

namespace SecretRenewal.Backoff

/-- The record of a run. -/
structure Execution (failure value : Type) where
  /-- The value of the last call, or why the run gave up. -/
  result : Except (GivenUp failure) value
  /-- When each call began, in order. -/
  calls : List Nat
  /-- The waits, in order: one after each call but the last. -/
  waits : List Duration
  /-- When the run ended. -/
  ended : Nat

/-- How long the calls of an operation take. -/
structure CallTimes where
  /-- How many milliseconds call number `n` takes, counted from zero. -/
  millis : Nat → Nat

/-- Calls that each wait so many milliseconds. -/
def CallTimes.waiting (millis : Nat) : CallTimes := ⟨fun _ => min millis Clock.farOff⟩

instance : Coe Nat CallTimes := ⟨CallTimes.waiting⟩

/-- What surrounds a run: the operation, how long each call takes, which failures may be
retried, and the random draws. -/
structure Setting (failure value : Type) where
  /-- What call number `n` gives, counted from zero. -/
  operation : Nat → Except failure value
  /-- How long each call takes. -/
  cost : CallTimes
  /-- Whether a failure may be retried. -/
  retryable : failure → Bool
  /-- The draw that lengthens the wait after call number `n`. -/
  draw : Nat → Binary64.Datum

/-- What follows call number `attempt`. The number serves as the index of the call, as that of the
wait after it and, with one added, as the count of the calls made. -/
def Setting.verdict {failure value : Type} (setting : Setting failure value) (policy : Backoff)
    (attempt : UInt32) : Verdict failure value :=
  policy.afterCall setting.retryable (setting.draw attempt.toNat) attempt
    (setting.operation attempt.toNat)

/-- The run from call number `attempt` on, at time `now`. -/
def executeFrom {failure value : Type} (policy : Backoff) (setting : Setting failure value)
    (attempt : UInt32) (now : Nat) : Execution failure value :=
  let ended := now + setting.cost.millis attempt.toNat
  match verdict : setting.verdict policy attempt with
  | .done value => ⟨.ok value, [now], [], ended⟩
  | .giveUp given => ⟨.error given, [now], [], ended⟩
  | .retry delay =>
    let later := executeFrom policy setting (attempt + 1) (Clock.wakeTime ended delay)
    { later with calls := now :: later.calls, waits := delay :: later.waits }
-- A retry is only made below the bound, so each brings the count closer to it.
termination_by policy.maxRetries.toNat - attempt.toNat
decreasing_by
  obtain ⟨_, _, below, _⟩ := eq_error_of_retry verdict
  have raised := toNat_succ_of_lt below
  have smaller := UInt32.lt_iff_toNat_lt.mp below
  omega

/-- A whole run, begun at time zero. -/
def executeWhen {failure value : Type} (policy : Backoff) (setting : Setting failure value) :
    Execution failure value :=
  executeFrom policy setting 0 0

/-- A whole run that retries every failure. -/
def execute {failure value : Type} (policy : Backoff) (setting : Setting failure value) :
    Execution failure value :=
  executeWhen policy { setting with retryable := fun _ => true }

end SecretRenewal.Backoff
