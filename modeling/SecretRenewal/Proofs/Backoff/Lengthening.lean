/-
This file bounds delays that are lengthened at random. The factor lies between one and five quarters
whatever the draw, but the delay goes through floating-point seconds on the way. Up to some weeks
the roundings stay below what a nanosecond of room takes up, so the delay becomes no shorter and at
most a quarter longer. From `2 ^ 23` seconds on the steps are wider than a nanosecond, and a draw of
zero may give less than the delay was; the error is never more than one part in `2 ^ 50`.
-/
import SecretRenewal.Proofs.Backoff.Doubling
import SecretRenewal.Proofs.Binary64.Seconds

namespace SecretRenewal

open Binary64

theorem exists_quarter : ∃ bit, Nat.pow 2 1072 = 2 ^ bit ∧ oneUnits = 4 * 2 ^ bit :=
  ⟨1072, by decide +kernel, by decide +kernel⟩

attribute [local irreducible] oneUnits limitUnits grain

namespace Backoff

/-! ### Factors -/

/-- A draw is a number from zero up to one. -/
def IsDraw (draw : Datum) : Prop := ∃ units < oneUnits, draw = .finite false units

theorem isDraw_zero : IsDraw .zero := ⟨0, oneUnits_pos, rfl⟩

/-- The factor of a draw is between one and five quarters. -/
theorem exists_jitterFactor {draw : Datum} (isDraw : IsDraw draw) :
    ∃ factor, jitterFactor draw = .finite false factor ∧ oneUnits ≤ factor ∧
      4 * factor ≤ 5 * oneUnits := by
  obtain ⟨units, less, rfl⟩ := isDraw
  obtain ⟨bit, isQuarter, isOne⟩ := exists_quarter
  have product : roundUnits (units * 2 ^ bit) oneUnits ≤ 2 ^ bit := by
    have mono := roundUnits_mono oneUnits_pos
      (Nat.mul_le_mul_right (2 ^ bit) (Nat.le_of_lt less))
    have exact := @roundUnits_of_exact oneUnits 1 (by decide) bit oneUnits_pos
    rw [Nat.one_mul] at exact
    rwa [Nat.mul_comm oneUnits, exact] at mono
  have isProduct : (Datum.finite false units).mul (.finite false (Nat.pow 2 1072)) =
      .finite false (roundUnits (units * 2 ^ bit) oneUnits) := by
    rw [Datum.mul_finite, isQuarter]
    refine Datum.nearest_of_lt (@lt_limitUnits_of_le 0 _ (by decide) ?_)
    omega
  have lower := @roundUnits_mono 1 (oneUnits * 2 ^ 0 * 1)
    (oneUnits + roundUnits (units * 2 ^ bit) oneUnits) Nat.one_pos (by omega)
  have upper := @roundUnits_mono 1 (oneUnits + roundUnits (units * 2 ^ bit) oneUnits)
    (5 * 2 ^ bit * 1) Nat.one_pos (by omega)
  rw [roundUnits_scaled 0 Nat.one_pos] at lower
  rw [roundUnits_of_exact (by decide) bit Nat.one_pos] at upper
  refine ⟨roundUnits (oneUnits + roundUnits (units * 2 ^ bit) oneUnits) 1, ?_, by omega, by omega⟩
  unfold jitterFactor
  rw [isProduct]
  show nearest false (oneUnits + _) 1 = _
  exact Datum.nearest_of_lt (@lt_limitUnits_of_le 1 _ (by decide) (by omega))

theorem jitterFactor_zero : jitterFactor .zero = .one := by decide +kernel

end Backoff

namespace Duration

/-! ### Scaled spans -/

variable {span scaled : Duration} {factor : Nat}

/-- A span of less than `2 ^ 23` seconds comes back no shorter. -/
theorem le_of_scaledBy?_one (few : span.seconds < 2 ^ 23)
    (isScaled : span.scaledBy? (.finite false oneUnits) = some scaled) : span ≤ scaled := by
  have back := (near_nanos isScaled).ge
  have seconds := (near_secondsUnits few (by decide)).ge
  have positive := grain_pos
  rw [scaledUnits_one] at back
  have less : span.nanos * oneUnits < (scaled.nanos + 1) * oneUnits := by
    rw [Nat.add_one_mul]
    rw [oneUnits_eq] at back seconds ⊢
    unfold nanosPerSecond at seconds back
    omega
  exact Nat.le_of_lt_succ (Nat.lt_of_mul_lt_mul_right less)

/-- A span of at most 3355443 seconds has less than four fifths of `2 ^ 22` seconds. -/
theorem secondsUnits_lt (few : span.nanos ≤ 3355443 * nanosPerSecond)
    (seconds : span.seconds < 2 ^ 22) :
    5 * span.secondsUnits < 4 * (oneUnits * 2 ^ 22) := by
  have near := (near_secondsUnits seconds (by decide)).le
  have most := Nat.mul_le_mul_right oneUnits few
  have room : 10 * (3355443 * nanosPerSecond * oneUnits) +
      5 * (grain * 2 ^ 22 * nanosPerSecond + grain * nanosPerSecond) <
      8 * (oneUnits * 2 ^ 22 * nanosPerSecond) := by
    have positive := grain_pos
    rw [oneUnits_eq]
    unfold nanosPerSecond
    generalize grain = step at positive ⊢
    omega
  have less : 5 * span.secondsUnits * nanosPerSecond <
      4 * (oneUnits * 2 ^ 22) * nanosPerSecond := by
    rw [Nat.mul_assoc 5, Nat.mul_assoc 4]
    generalize grain = step at *
    generalize oneUnits = one at *
    generalize nanosPerSecond = second at *
    omega
  exact Nat.lt_of_mul_lt_mul_right less

/-- Four fifths of a limit times five quarters stay below it. -/
theorem mul_lt_of_quarter {units limit : Nat} (small : 4 * factor ≤ 5 * oneUnits)
    (less : 5 * units < 4 * limit) : units * factor < limit * oneUnits := by
  refine Nat.lt_of_mul_lt_mul_left (a := 4) ?_
  calc 4 * (units * factor)
    _ = units * (4 * factor) := Nat.mul_left_comm ..
    _ ≤ units * (5 * oneUnits) := Nat.mul_le_mul_left units small
    _ = 5 * units * oneUnits := by rw [Nat.mul_left_comm, Nat.mul_assoc]
    _ < 4 * limit * oneUnits := Nat.mul_lt_mul_of_pos_right less oneUnits_pos
    _ = 4 * (limit * oneUnits) := Nat.mul_assoc ..

/-- Times five quarters a number of units is at most a quarter larger. -/
theorem quarter_of_near {units product slack : Nat} (small : 4 * factor ≤ 5 * oneUnits)
    (le : 2 * (product * oneUnits) ≤ 2 * (units * factor) + oneUnits * slack) :
    4 * product ≤ 5 * units + 2 * slack := by
  refine Nat.le_of_mul_le_mul_right ?_ oneUnits_pos
  have factors := Nat.mul_le_mul_left units small
  rw [Nat.mul_left_comm, Nat.mul_left_comm units 5] at factors
  rw [Nat.add_mul, Nat.mul_assoc 4, Nat.mul_assoc 5, Nat.mul_assoc 2, Nat.mul_comm slack]
  omega

/-- A span of at most 3355443 seconds becomes at most a quarter longer, up to a nanosecond. -/
theorem scaled_le_of_few (few : span.nanos ≤ 3355443 * nanosPerSecond)
    (small : 4 * factor ≤ 5 * oneUnits)
    (isScaled : span.scaledBy? (.finite false factor) = some scaled) :
    scaled.nanos ≤ span.nanos + span.nanos / 4 + 1 := by
  have seconds : span.seconds < 2 ^ 22 :=
    Nat.lt_of_le_of_lt (Nat.div_le_of_le_mul (Nat.mul_comm _ nanosPerSecond ▸ few)) (by decide)
  have back := (near_nanos isScaled).le
  have near := (near_secondsUnits seconds (by decide)).le
  have units : 4 * span.scaledUnits factor ≤ 5 * span.secondsUnits + 2 * (grain * 2 ^ 22) :=
    quarter_of_near small (near_roundUnits_of_lt 22 oneUnits_pos
      (mul_lt_of_quarter small (secondsUnits_lt few seconds))).le
  have product := Nat.mul_le_mul_right nanosPerSecond units
  rw [Nat.add_mul, Nat.mul_assoc 4, Nat.mul_assoc 5, Nat.mul_assoc 2] at product
  have room : 5 * (grain * 2 ^ 22 * nanosPerSecond + grain * nanosPerSecond) +
      4 * (grain * 2 ^ 22 * nanosPerSecond) < 5 * oneUnits := by
    have positive := grain_pos
    rw [oneUnits_eq]
    unfold nanosPerSecond
    generalize grain = step at positive ⊢
    omega
  have less : 8 * scaled.nanos * oneUnits < (10 * span.nanos + 9) * oneUnits := by
    rw [Nat.add_mul, Nat.mul_assoc 8, Nat.mul_assoc 10]
    generalize grain = step at *
    generalize oneUnits = one at *
    generalize nanosPerSecond = second at *
    omega
  have nanos := Nat.lt_of_mul_lt_mul_right less
  omega

/-- Rounding the product adds a part to five quarters of the seconds at most. -/
theorem scaledUnits_upper (large : oneUnits ≤ factor) (small : 4 * factor ≤ 5 * oneUnits) :
    2 ^ 55 * span.scaledUnits factor ≤ (5 * 2 ^ 53 + 5) * span.secondsUnits := by
  have near := (@near_scaledUnits span factor large).le
  have most := Nat.mul_le_mul_left span.secondsUnits small
  rw [Nat.mul_left_comm, Nat.mul_left_comm _ 5] at most
  refine Nat.le_of_mul_le_mul_right ?_ oneUnits_pos
  rw [Nat.mul_assoc, Nat.mul_assoc]
  generalize oneUnits = one at *
  omega

/-- A scaled span falls short of the span by one part in `2 ^ 50` at most, up to a nanosecond, and
is no more than a quarter longer but for such a part. -/
theorem scaled_bounds (large : oneUnits ≤ factor) (small : 4 * factor ≤ 5 * oneUnits)
    (isScaled : span.scaledBy? (.finite false factor) = some scaled) :
    span.nanos ≤ scaled.nanos + span.nanos / 2 ^ 50 + 1 ∧
      scaled.nanos ≤ span.nanos + span.nanos / 4 + span.nanos / 2 ^ 50 + 2 := by
  obtain ⟨backLe, backGe⟩ := near_nanos isScaled
  obtain ⟨nearLe, nearGe⟩ := @near_secondsUnits_part span
  have lowerNanos := Nat.mul_le_mul_right nanosPerSecond
    (@scaledUnits_lower span factor 1 Nat.one_pos (by rwa [Nat.mul_one]))
  have upperNanos := Nat.mul_le_mul_right nanosPerSecond
    (@scaledUnits_upper span factor large small)
  rw [Nat.mul_one, Nat.add_mul, Nat.mul_assoc, Nat.mul_assoc] at lowerNanos
  rw [Nat.mul_assoc, Nat.mul_assoc] at upperNanos
  constructor
  · have units : 2 ^ 54 * span.nanos * oneUnits ≤
        (2 ^ 54 * scaled.nanos + 2 ^ 53 + 10 * span.nanos) * oneUnits := by
      rw [Nat.add_mul, Nat.add_mul, Nat.mul_assoc, Nat.mul_assoc, Nat.mul_assoc]
      generalize oneUnits = one at *
      generalize nanosPerSecond = second at *
      omega
    have nanos := Nat.le_of_mul_le_mul_right units oneUnits_pos
    omega
  · have units : 2 ^ 56 * scaled.nanos * oneUnits ≤
        (5 * 2 ^ 54 * span.nanos + 50 * span.nanos + 2 ^ 55) * oneUnits := by
      rw [Nat.add_mul, Nat.add_mul, Nat.mul_assoc, Nat.mul_assoc _ span.nanos, Nat.mul_assoc 50]
      generalize oneUnits = one at *
      generalize nanosPerSecond = second at *
      omega
    have nanos := Nat.le_of_mul_le_mul_right units oneUnits_pos
    omega

end Duration

namespace Backoff

/-! ### Delays -/

section

variable {policy : Backoff} {attempt : UInt32} {draw : Datum}

theorem delay_of_jitter (jitters : policy.jitter = true) :
    policy.delay attempt draw =
      ((policy.baseDelay attempt).scaledBy? (jitterFactor draw)).getD
        (policy.baseDelay attempt) := by
  unfold delay
  exact if_pos jitters

/-- A lengthened delay is the delay times a factor between one and five quarters, or the delay
where that is no span. -/
theorem delay_cases (jitters : policy.jitter = true) (isDraw : IsDraw draw) :
    policy.delay attempt draw = policy.baseDelay attempt ∨
      ∃ factor, oneUnits ≤ factor ∧ 4 * factor ≤ 5 * oneUnits ∧
        (policy.baseDelay attempt).scaledBy? (.finite false factor) =
          some (policy.delay attempt draw) := by
  obtain ⟨factor, isFactor, large, small⟩ := exists_jitterFactor isDraw
  rw [delay_of_jitter jitters, isFactor]
  cases isScaled : (policy.baseDelay attempt).scaledBy? (.finite false factor) with
  | none => exact .inl rfl
  | some scaled => exact .inr ⟨factor, large, small, isScaled⟩

/-- No draw gives less than zero does. -/
theorem le_delay_iff_zero (jitters : policy.jitter = true) :
    (∀ draw, IsDraw draw → policy.baseDelay attempt ≤ policy.delay attempt draw) ↔
      policy.baseDelay attempt ≤ policy.delay attempt .zero := by
  refine ⟨fun every => every .zero isDraw_zero, fun least draw isDraw => ?_⟩
  rcases @delay_cases policy attempt draw jitters isDraw with same | ⟨factor, large, -, isScaled⟩
  · rw [same]
    exact Nat.le_refl _
  · obtain ⟨shorter, isShorter, shorterLe⟩ := Duration.exists_le_of_scaledBy? large isScaled
    rw [delay_of_jitter jitters, jitterFactor_zero, Datum.one, isShorter, Option.getD_some] at least
    exact Nat.le_trans least shorterLe

/-- What a draw makes of a delay that is lengthened at random. -/
structure Lengthens (policy : Backoff) (attempt : UInt32) (draw : Datum) (base : Duration) :
    Prop where
  /-- A product that is no span leaves the delay as it is. -/
  kept : base.scaledBy? (jitterFactor draw) = none → policy.delay attempt draw = base
  notShorter : base.seconds < 2 ^ 23 → base ≤ policy.delay attempt draw
  atMostQuarter : base.nanos ≤ 3355443 * nanosPerSecond →
    (policy.delay attempt draw).nanos ≤ base.nanos + base.nanos / 4 + 1 ∧
      (policy.delay attempt draw).nanos ≤
        policy.maxDelay.nanos + policy.maxDelay.nanos / 4 + 1
  /-- However long the delay is, rounding takes away one part in `2 ^ 50` at most. -/
  hardlyShorter : base.nanos ≤ (policy.delay attempt draw).nanos + base.nanos / 2 ^ 50 + 1
  hardlyMore : (policy.delay attempt draw).nanos ≤
      base.nanos + base.nanos / 4 + base.nanos / 2 ^ 50 + 2 ∧
    (policy.delay attempt draw).nanos ≤ policy.maxDelay.nanos + policy.maxDelay.nanos / 4 +
      policy.maxDelay.nanos / 2 ^ 50 + 2

theorem lengthens (jitters : policy.jitter = true) (isDraw : IsDraw draw) :
    Lengthens policy attempt draw (policy.baseDelay attempt) := by
  have most : (policy.baseDelay attempt).nanos ≤ policy.maxDelay.nanos :=
    policy.baseDelay_le_maxDelay attempt
  rcases @delay_cases policy attempt draw jitters isDraw with
    same | ⟨factor, large, small, isScaled⟩
  · rw [← same] at most
    refine ⟨fun _ => same, fun _ => ?_, fun _ => ?_, ?_, ?_⟩
    · rw [same]
      exact Nat.le_refl _
    all_goals rw [same] at most ⊢; omega
  · obtain ⟨shorter, isShorter, shorterLe⟩ := Duration.exists_le_of_scaledBy? large isScaled
    obtain ⟨lower, upper⟩ := Duration.scaled_bounds large small isScaled
    refine ⟨fun none => ?_, fun few => ?_, fun few => ?_, lower, upper, ?_⟩
    · rw [delay_of_jitter jitters, none, Option.getD_none]
    · exact Nat.le_trans (Duration.le_of_scaledBy?_one few isShorter) shorterLe
    · have atMost := Duration.scaled_le_of_few few small isScaled
      exact ⟨atMost, by omega⟩
    · omega

end

/-- A delay that is lengthened at random is no shorter than without and at most a quarter longer, as
long as it is not so long that roundings count; how much they count, where it is, is bounded too. It
is no shorter for any draw exactly if it is not for zero. -/
theorem lengthens_up_to_rounding {policy : Backoff} {attempt : UInt32} {draw other : Datum}
    {base : Duration} (jitters : policy.jitter = true) (isDraw : IsDraw draw)
    (isBase : ({ policy with jitter := false } : Backoff).delay attempt other = base) :
    Lengthens policy attempt draw base ∧
      ((∀ any, IsDraw any → base ≤ policy.delay attempt any) ↔
        base ≤ policy.delay attempt .zero) := by
  have plain : policy.baseDelay attempt = base :=
    (@delay_of_plain { policy with jitter := false } rfl attempt other).symm.trans isBase
  rw [← plain]
  exact ⟨lengthens jitters isDraw, le_delay_iff_zero jitters⟩

/-! ### Long delays -/

/-- One retry, after a delay that is lengthened at random. -/
def lengthening (delay : Duration) : Backoff := { fixed 1 delay with jitter := true }

/-- Eight nanoseconds more than `2 ^ 23` seconds. -/
def ninetySevenDays : Duration := ⟨8388608000000008, by decide⟩

/-- Three seconds more than `2 ^ 53`. -/
def eonsLater : Duration := Duration.ofSeconds 9007199254740995

/-- The largest draw below one. -/
def largestDraw : Datum := .finite false (Nat.pow 2 1074 - Nat.pow 2 1021)

/-- A long delay gets a nanosecond shorter, and a longer one gets more than a quarter longer. -/
theorem long_delays_leave_bounds :
    IsDraw .zero ∧ (fixed 1 ninetySevenDays).delay 0 .zero = ninetySevenDays ∧
      ((lengthening ninetySevenDays).delay 0 .zero).nanos = 8388608000000007 ∧
      IsDraw largestDraw ∧ (fixed 1 eonsLater).delay 0 .zero = eonsLater ∧
      eonsLater.nanos + eonsLater.nanos / 4 + 1 <
        ((lengthening eonsLater).delay 0 largestDraw).nanos := by
  refine ⟨isDraw_zero, delay_fixed .., ?_, ⟨_, ?_, rfl⟩, delay_fixed .., ?_⟩
  · decide +kernel
  · decide +kernel
  · decide +kernel

end Backoff

end SecretRenewal
