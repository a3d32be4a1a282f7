/-
This file says how long to wait before an operation is tried again. A policy starts from an
initial delay and multiplies it once per attempt up to a largest delay; with the factor one it
is a fixed delay, which comes back exactly. A policy may lengthen its delays by up to a
quarter at random; the random draw is an argument here, a number from zero up to one. The file also
says what follows each call of an operation that is tried under a policy: the end, or a wait and
another call.
-/
import SecretRenewal.Binary64.Seconds

namespace SecretRenewal

/-- How often and how soon a failed operation is tried again. -/
structure Backoff where
  /-- How many times at most it is tried again. -/
  maxRetries : UInt32
  /-- The delay before the first retry. -/
  initialDelay : Duration
  /-- The largest delay, before lengthening. -/
  maxDelay : Duration
  /-- The factor applied once per attempt; one keeps the delay fixed. -/
  multiplier : Binary64
  /-- Whether delays are lengthened at random. -/
  jitter : Bool
  deriving DecidableEq

namespace Backoff

/-- Three retries, from a tenth of a second up to ten seconds, doubling, lengthened at
random. -/
def standard : Backoff where
  maxRetries := 3
  initialDelay := Duration.ofMillis 100
  maxDelay := Duration.ofMillis 10000
  multiplier := (Binary64.Datum.ofNat 2).toBinary64
  jitter := true

/-- So many retries, all after the same delay. -/
def fixed (maxRetries : UInt32) (delay : Duration) : Backoff where
  maxRetries := maxRetries
  initialDelay := delay
  maxDelay := delay
  multiplier := Binary64.Datum.one.toBinary64
  jitter := false

/-- The largest exponent a factor is raised to. -/
def maxExponent : Nat := 2147483647

/-- The factor of a retry: the multiplier to the power of the number of retries before it. -/
def factor (policy : Backoff) (attempt : UInt32) : Binary64.Datum :=
  policy.multiplier.datum.power (min attempt.toNat maxExponent)

/-- Whether a factor counts as one, so that the delay is taken as it stands. -/
def isUnit (factor : Binary64.Datum) : Bool :=
  (factor.sub Binary64.Datum.one).abs.lt Binary64.Datum.epsilon

/-- The delay before a retry, before lengthening: the initial delay times the factor, and the
largest delay where that product is no span or is longer. -/
def baseDelay (policy : Backoff) (attempt : UInt32) : Duration :=
  let factor := policy.factor attempt
  let scaled :=
    if isUnit factor then policy.initialDelay
    else (policy.initialDelay.scaledBy? factor).getD policy.maxDelay
  min scaled policy.maxDelay

/-- The factor that a draw lengthens a delay by: one and up to a quarter. -/
def jitterFactor (draw : Binary64.Datum) : Binary64.Datum :=
  Binary64.Datum.one.add (draw.mul (Binary64.Datum.finite false (Nat.pow 2 1072)))

/-- The delay before retry number `attempt`, counted from zero. -/
def delay (policy : Backoff) (attempt : UInt32) (draw : Binary64.Datum) : Duration :=
  let base := policy.baseDelay attempt
  if policy.jitter then (base.scaledBy? (jitterFactor draw)).getD base else base

/-- Whether one more retry is allowed after `attempt` of them. -/
def allowsRetry (policy : Backoff) (attempt : UInt32) : Bool := decide (attempt < policy.maxRetries)

/-! ### After a call -/

/-- What a run ends with when it gives up. -/
structure GivenUp (failure : Type) where
  /-- The calls made, counted in 32 bits. -/
  attempts : UInt32
  /-- The failure of the last call. -/
  failure : failure
  deriving DecidableEq

/-- What follows a call. -/
inductive Verdict (failure value : Type)
  /-- The run ends with the value of the call. -/
  | done (value : value)
  /-- The run waits and calls again. -/
  | retry (delay : Duration)
  /-- The run gives up. -/
  | giveUp (given : GivenUp failure)

/-- What follows a call that was made after `attempt` retries. -/
def afterCall {failure value : Type} (policy : Backoff) (retryable : failure → Bool)
    (draw : Binary64.Datum) (attempt : UInt32) :
    Except failure value → Verdict failure value
  | .ok value => .done value
  | .error failure =>
    if policy.allowsRetry attempt && retryable failure then .retry (policy.delay attempt draw)
    else .giveUp ⟨attempt + 1, failure⟩

end Backoff

/-- A count below a bound can be raised by one without wrapping around. -/
theorem toNat_succ_of_lt {attempt bound : UInt32} (less : attempt < bound) :
    (attempt + 1).toNat = attempt.toNat + 1 := by
  have small : attempt.toNat < bound.toNat := UInt32.lt_iff_toNat_lt.mp less
  have wide : bound.toNat < 2 ^ 32 := bound.toNat_lt
  rw [UInt32.toNat_add]
  exact Nat.mod_eq_of_lt (by show attempt.toNat + 1 < _; omega)

theorem Backoff.lt_of_allowsRetry {policy : Backoff} {attempt : UInt32}
    (allowed : policy.allowsRetry attempt = true) : attempt < policy.maxRetries :=
  of_decide_eq_true allowed

namespace Backoff

section

variable {failure value : Type} {policy : Backoff} {retryable : failure → Bool}
  {draw : Binary64.Datum} {attempt : UInt32}

theorem afterCall_of_lt {given : failure} (below : attempt < policy.maxRetries)
    (retried : retryable given = true) :
    policy.afterCall retryable draw attempt (.error given : Except failure value) =
      .retry (policy.delay attempt draw) :=
  if_pos (Bool.and_eq_true_iff.mpr ⟨decide_eq_true below, retried⟩)

theorem afterCall_of_le {given : failure} (reached : policy.maxRetries ≤ attempt) :
    policy.afterCall retryable draw attempt (.error given : Except failure value) =
      .giveUp ⟨attempt + 1, given⟩ := by
  refine if_neg fun more => UInt32.not_lt.mpr reached ?_
  exact lt_of_allowsRetry (Bool.and_eq_true_iff.mp more).1

theorem afterCall_of_final {given : failure} (final : retryable given = false) :
    policy.afterCall retryable draw attempt (.error given : Except failure value) =
      .giveUp ⟨attempt + 1, given⟩ := by
  refine if_neg fun more => Bool.false_ne_true ?_
  rw [← final]
  exact (Bool.and_eq_true_iff.mp more).2

/-- A run goes on after a failure that may be retried, as long as its policy allows it. -/
theorem afterCall_error (value : Type) (given : failure) :
    (attempt < policy.maxRetries ∧ retryable given = true ∧
      policy.afterCall retryable draw attempt (.error given : Except failure value) =
        .retry (policy.delay attempt draw)) ∨
    ((policy.maxRetries ≤ attempt ∨ retryable given = false) ∧
      policy.afterCall retryable draw attempt (.error given : Except failure value) =
        .giveUp ⟨attempt + 1, given⟩) := by
  by_cases below : attempt < policy.maxRetries
  · cases retried : retryable given with
    | true => exact .inl ⟨below, rfl, afterCall_of_lt below retried⟩
    | false => exact .inr ⟨.inr rfl, afterCall_of_final retried⟩
  · have reached := UInt32.not_lt.mp below
    exact .inr ⟨.inl reached, afterCall_of_le reached⟩

variable {result : Except failure value}

theorem eq_ok_of_done {given : value}
    (done : policy.afterCall retryable draw attempt result = .done given) :
    result = .ok given := by
  cases result with
  | ok value => exact congrArg Except.ok (Verdict.done.inj done)
  | error failure =>
    rcases afterCall_error value failure with ⟨-, -, goesOn⟩ | ⟨-, ends⟩
    · cases goesOn.symm.trans done
    · cases ends.symm.trans done

theorem eq_error_of_retry {delay : Duration}
    (retried : policy.afterCall retryable draw attempt result = .retry delay) :
    ∃ given, result = .error given ∧ attempt < policy.maxRetries ∧ retryable given = true ∧
      delay = policy.delay attempt draw := by
  cases result with
  | ok value => cases retried
  | error failure =>
    rcases afterCall_error value failure with ⟨below, retryable, goesOn⟩ | ⟨-, ends⟩
    · exact ⟨failure, rfl, below, retryable, Verdict.retry.inj (retried.symm.trans goesOn)⟩
    · cases ends.symm.trans retried

theorem eq_error_of_giveUp {gaveUp : GivenUp failure}
    (given : policy.afterCall retryable draw attempt result = .giveUp gaveUp) :
    result = .error gaveUp.failure ∧ gaveUp.attempts = attempt + 1 ∧
      (policy.maxRetries ≤ attempt ∨ retryable gaveUp.failure = false) := by
  cases result with
  | ok value => cases given
  | error failure =>
    rcases afterCall_error value failure with ⟨-, -, goesOn⟩ | ⟨last, ends⟩
    · cases goesOn.symm.trans given
    · cases ends.symm.trans given
      exact ⟨rfl, rfl, last⟩

end

end Backoff

end SecretRenewal
