/-
This file holds the clock that waits are measured on. A reading is a count of whole
milliseconds, and a wait ends at the first tick at or after its exact end. An instant is a number
of nanoseconds whose seconds fit in 63 bits. A wait that is asked for by its length is cut off
after thirty years, so it always has an end; one that is asked for by its end lasts as long as it
says, but that end has to be an instant.
-/
import SecretRenewal.Duration

namespace SecretRenewal

namespace Clock

/-- The first number of seconds that an instant cannot have: two to the power of 63. -/
def instantLimit : Nat := 9223372036854775808

/-- Whether the end of a span begun at `now` is an instant at all. -/
def reaches (now : Nat) (span : Duration) : Bool :=
  decide (now * 1000000 + span.nanos < instantLimit * nanosPerSecond)

/-- Thirty years, the longest wait that can be asked for by its length. -/
def farOff : Nat := 30 * 365 * 86400 * 1000

/-- The tick at which a span begun at `now` is over, its end rounded up to a whole tick. -/
def tickAfter (now : Nat) (span : Duration) : Nat := now + span.millisUp

/-- The tick at which a wait of so many milliseconds ends that is begun at `now`. -/
def wakeTick (now millis : Nat) : Nat := now + min millis farOff

/-- The tick at which a wait begun at `now` ends, however long it is. -/
def wakeTime (now : Nat) (span : Duration) : Nat := wakeTick now span.millisUp

/-- A wait of at most thirty years ends when its span is over. -/
theorem wakeTime_eq_tickAfter {span : Duration} (now : Nat) (short : span.millisUp ≤ farOff) :
    wakeTime now span = tickAfter now span := by
  rw [wakeTime, wakeTick, Nat.min_eq_left short, tickAfter]

/-- A wait never ends before it begins. -/
theorem le_wakeTime (now : Nat) (span : Duration) : now ≤ wakeTime now span :=
  Nat.le_add_right now _

end Clock

end SecretRenewal
