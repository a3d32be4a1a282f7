/-
This file computes when to refresh. A cycle obtains one lease on its token and one on every
secret; the next cycle has to start before the shortest of them runs out, so the interval is
three quarters of that shortest lease. The product is taken in whole nanoseconds and held in
128 bits, and the seconds of the result in 64; the lemmas at the end say that neither width
is ever exceeded, so the interval is exact for every lease.
-/
import SecretRenewal.Binary64.Basic
import SecretRenewal.Duration

namespace SecretRenewal

/-- What a lease was granted on. -/
inductive LeaseSource
  /-- The token that reads the secrets. -/
  | token
  /-- One of the secrets. -/
  | secret
  deriving DecidableEq

/-- A granted lease. -/
structure Lease where
  /-- How long it stays valid. -/
  duration : Duration
  /-- What it was granted on. -/
  source : LeaseSource
  deriving DecidableEq

namespace Lease

/-- A lease on the token. -/
def ofToken (duration : Duration) : Lease := ⟨duration, .token⟩

/-- A lease on a secret. -/
def ofSecret (duration : Duration) : Lease := ⟨duration, .secret⟩

/-! ### The interval -/

/-- The share of the shortest lease after which the next cycle starts, as a number. -/
def refreshRatio : Binary64 :=
  ((Binary64.Datum.ofNat 3).div (Binary64.Datum.ofNat 4)).toBinary64

/-- The first number that 128 bits do not hold: two to the power of 128. -/
def wideLimit : Nat := 340282366920938463463374607431768211456

/-- Three times a lease, in nanoseconds, as a 128-bit word holds it. -/
def tripled (lease : Duration) : Nat := lease.nanos * 3 % wideLimit

/-- Three quarters of a lease, rounded down to whole nanoseconds. The seconds are cut off at
what 64 bits hold. -/
def threeQuarters (lease : Duration) : Duration :=
  let quarter := tripled lease / 4
  (Duration.ofParts? (min (quarter / nanosPerSecond) (secondsLimit - 1))
    (quarter % nanosPerSecond)).getD Duration.longest

/-- The interval for a token lease and the shortest lease of the secrets. A zero lease governs:
the next cycle then runs at once. -/
def refreshInterval (tokenLease shortestSecretLease : Duration) : Duration :=
  threeQuarters (min tokenLease shortestSecretLease)

/-- The shortest of some leases. -/
def shortest? : List Duration → Option Duration
  | [] => none
  | lease :: rest => some (rest.foldl min lease)

/-- The interval for any mix of leases; none without leases. -/
def aggregate (leases : List Lease) : Option Duration :=
  (shortest? (leases.map Lease.duration)).map threeQuarters

/-! ### Exactness -/

/-- The product never exceeds 128 bits. -/
theorem tripled_eq (lease : Duration) : tripled lease = lease.nanos * 3 := by
  have bounded := lease.nanos_lt
  unfold tripled wideLimit
  unfold secondsLimit nanosPerSecond at bounded
  omega

/-- The interval is three quarters of the lease, rounded down, for every lease. -/
@[simp] theorem nanos_threeQuarters (lease : Duration) :
    (threeQuarters lease).nanos = lease.nanos * 3 / 4 := by
  have bounded := lease.nanos_lt
  unfold secondsLimit nanosPerSecond at bounded
  have parts : min (lease.nanos * 3 / 4 / nanosPerSecond) (secondsLimit - 1) * nanosPerSecond +
      lease.nanos * 3 / 4 % nanosPerSecond = lease.nanos * 3 / 4 := by
    unfold secondsLimit nanosPerSecond
    omega
  have fits : lease.nanos * 3 / 4 < secondsLimit * nanosPerSecond := by
    unfold secondsLimit nanosPerSecond
    omega
  have whole : threeQuarters lease = ⟨lease.nanos * 3 / 4, fits⟩ := by
    simp only [threeQuarters, tripled_eq]
    rw [Duration.ofParts?, parts, Duration.ofNanos?, dif_pos fits]
    rfl
  rw [whole]

end Lease

end SecretRenewal
