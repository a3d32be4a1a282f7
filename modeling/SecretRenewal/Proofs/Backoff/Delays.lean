/-
This file computes the delays of retry policies. The powers of one are all one, rounded or not, so
a policy with the factor one waits exactly its delay before every retry.
-/
import SecretRenewal.Backoff.Policy

namespace SecretRenewal

/-! ### Powers of one -/

namespace Binary64.Datum

theorem one_mul_one : one.mul one = one := by decide +kernel

/-- However often one is squared and multiplied, it stays one. -/
theorem powerFrom_one (digits exponent : Nat) : powerFrom digits one one exponent = one := by
  induction digits generalizing exponent with
  | zero => rfl
  | succ digits inductionHypothesis =>
    unfold powerFrom
    simp only [one_mul_one, ite_self]
    split
    · rfl
    · exact inductionHypothesis _

theorem one_power (exponent : Nat) : one.power exponent = one := powerFrom_one _ exponent

theorem datum_one : one.toBinary64.datum = one := by decide +kernel

end Binary64.Datum

/-! ### Fixed delays -/

namespace Backoff

theorem isUnit_one : isUnit Binary64.Datum.one = true := by decide +kernel

/-- A fixed policy multiplies by one, exactly. -/
theorem factor_fixed (maxRetries : UInt32) (delay : Duration) (attempt : UInt32) :
    (fixed maxRetries delay).factor attempt = Binary64.Datum.one := by
  unfold factor fixed
  rw [Binary64.Datum.datum_one, Binary64.Datum.one_power]

/-- A fixed policy waits its delay before every retry. -/
theorem baseDelay_fixed (maxRetries : UInt32) (delay : Duration) (attempt : UInt32) :
    (fixed maxRetries delay).baseDelay attempt = delay := by
  unfold baseDelay
  simp only [factor_fixed, isUnit_one, if_true]
  show (if delay ≤ delay then delay else delay) = delay
  exact ite_self delay

/-- Fixed delays are without jitter, so no draw changes them. -/
theorem delay_fixed (maxRetries : UInt32) (delay : Duration) (attempt : UInt32)
    (draw : Binary64.Datum) : (fixed maxRetries delay).delay attempt draw = delay :=
  baseDelay_fixed maxRetries delay attempt

end Backoff

end SecretRenewal
