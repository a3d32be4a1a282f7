/-
This file turns spans of time into floating-point seconds and back. Towards seconds, the whole
seconds and the fraction are each rounded and then added; back, the exact value of the number
is rounded once to whole nanoseconds, and a number that stands for no span gives none.
-/
import SecretRenewal.Binary64.Basic
import SecretRenewal.Duration

namespace SecretRenewal

namespace Duration

/-- A span in floating-point seconds. -/
def toSeconds (span : Duration) : Binary64.Datum :=
  (Binary64.Datum.ofNat span.seconds).add
    ((Binary64.Datum.ofNat span.subsecond).div (Binary64.Datum.ofNat nanosPerSecond))

/-- The span of so many seconds, rounded to whole nanoseconds, a tie to the even number. There
is none for what is no finite number, for a number below zero, and for one that is too large. -/
def ofSeconds? : Binary64.Datum → Option Duration
  | .nan => none
  | .infinite _ => none
  | .finite negative units =>
    if negative && units != 0 then none
    else if secondsLimit * Binary64.oneUnits ≤ units then none
    else ofNanos? (Binary64.roundHalfEven (units * nanosPerSecond) Binary64.oneUnits)

/-- A span times a factor, when that is a span. -/
def scaledBy? (span : Duration) (factor : Binary64.Datum) : Option Duration :=
  ofSeconds? (span.toSeconds.mul factor)

end Duration

end SecretRenewal
