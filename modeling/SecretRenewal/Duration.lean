/-
This file holds the spans of time that settings, leases and delays are given in: a whole
number of nanoseconds that never exceeds `2^64 - 1` seconds and `999999999` nanoseconds.
The bound is part of the type, so an operation that could leave the range has to say what
happens there. The file also says how a span is written for a human reader.
-/

namespace SecretRenewal

/-- Nanoseconds in one second. -/
def nanosPerSecond : Nat := 1000000000

/-- The first number of seconds that 64 bits do not hold: two to the power of 64. -/
def secondsLimit : Nat := 18446744073709551616

/-- A span of time, at most `2^64 - 1` seconds and `999999999` nanoseconds. -/
structure Duration where
  /-- The whole span in nanoseconds. -/
  nanos : Nat
  /-- The seconds fit in 64 bits. -/
  nanos_lt : nanos < secondsLimit * nanosPerSecond
  deriving DecidableEq

namespace Duration

@[ext] theorem ext {first second : Duration} (same : first.nanos = second.nanos) :
    first = second := by
  cases first
  cases second
  cases same
  rfl

/-! ### Building and taking apart -/

/-- The empty span. -/
def zero : Duration := ⟨0, by decide⟩

/-- The longest span. -/
def longest : Duration := ⟨secondsLimit * nanosPerSecond - 1, by decide⟩

instance : Inhabited Duration := ⟨zero⟩

/-- A span of so many nanoseconds, unless that is too long. -/
def ofNanos? (nanos : Nat) : Option Duration :=
  if bounded : nanos < secondsLimit * nanosPerSecond then some ⟨nanos, bounded⟩ else none

/-- A span of whole seconds and further nanoseconds, unless that is too long. Nanoseconds
beyond one second carry over. -/
def ofParts? (seconds subsecond : Nat) : Option Duration :=
  ofNanos? (seconds * nanosPerSecond + subsecond)

/-- A span of whole seconds. -/
def ofSeconds (seconds : UInt64) : Duration :=
  ⟨seconds.toNat * nanosPerSecond,
    Nat.mul_lt_mul_of_pos_right (Nat.lt_of_lt_of_le seconds.toNat_lt (by decide)) (by decide)⟩

/-- A span of milliseconds, cut off at the longest span. -/
def ofMillis (millis : Nat) : Duration :=
  (ofNanos? (millis * 1000000)).getD longest

/-- The whole seconds of a span. -/
def seconds (span : Duration) : Nat := span.nanos / nanosPerSecond

/-- The nanoseconds beyond the whole seconds. -/
def subsecond (span : Duration) : Nat := span.nanos % nanosPerSecond

theorem seconds_lt (span : Duration) : span.seconds < secondsLimit :=
  Nat.div_lt_of_lt_mul (Nat.mul_comm _ _ ▸ span.nanos_lt)

theorem subsecond_lt (span : Duration) : span.subsecond < nanosPerSecond :=
  Nat.mod_lt _ (by decide)

/-- A span is its seconds and its nanoseconds beyond them. -/
theorem ofParts?_seconds_subsecond (span : Duration) :
    ofParts? span.seconds span.subsecond = some span := by
  have whole : span.seconds * nanosPerSecond + span.subsecond = span.nanos :=
    Nat.div_add_mod' span.nanos nanosPerSecond
  rw [ofParts?, whole, ofNanos?, dif_pos span.nanos_lt]

/-- Whole milliseconds, a started one counted in full. -/
def millisUp (span : Duration) : Nat := (span.nanos + 999999) / 1000000

/-! ### Order -/

instance : LE Duration := ⟨fun first second => first.nanos ≤ second.nanos⟩

instance : LT Duration := ⟨fun first second => first.nanos < second.nanos⟩

instance (first second : Duration) : Decidable (first ≤ second) :=
  inferInstanceAs (Decidable (first.nanos ≤ second.nanos))

instance (first second : Duration) : Decidable (first < second) :=
  inferInstanceAs (Decidable (first.nanos < second.nanos))

instance : Min Duration := ⟨fun first second => if first ≤ second then first else second⟩

theorem le_def {first second : Duration} : first ≤ second ↔ first.nanos ≤ second.nanos := Iff.rfl

/-- The shorter of two spans has the smaller number of nanoseconds. -/
@[simp] theorem nanos_min (first second : Duration) :
    (min first second).nanos = min first.nanos second.nanos := by
  show (if first ≤ second then first else second).nanos = _
  by_cases shorter : first ≤ second
  · rw [if_pos shorter, Nat.min_eq_left shorter]
  · rw [if_neg shorter, Nat.min_eq_right (Nat.le_of_not_le shorter)]

/-! ### The written form -/

/-- The digits of a number below `10 ^ width`, with leading zeros up to that width. -/
def paddedDigits (width value : Nat) : List Char :=
  let digits := Nat.toDigits 10 value
  List.replicate (width - digits.length) '0' ++ digits

/-- A whole number and a fraction of so many digits; trailing zeros of the fraction are left
out, and the point with them when nothing remains. -/
def decimalText (whole fraction width : Nat) : String :=
  let kept := ((paddedDigits width fraction).reverse.dropWhile (· == '0')).reverse
  if fraction = 0 then toString whole else toString whole ++ "." ++ String.ofList kept

/-- A span is written in the largest of `s`, `ms`, `µs` and `ns` that is not zero in it. -/
def text (span : Duration) : String :=
  if span.nanos ≥ nanosPerSecond then
    decimalText span.seconds span.subsecond 9 ++ "s"
  else if span.nanos ≥ 1000000 then
    decimalText (span.nanos / 1000000) (span.nanos % 1000000) 6 ++ "ms"
  else if span.nanos ≥ 1000 then
    decimalText (span.nanos / 1000) (span.nanos % 1000) 3 ++ "µs"
  else
    toString span.nanos ++ "ns"

end Duration

end SecretRenewal
