/-
This file bounds what rounding takes away or adds. A rounding is off by half a step at most. Below a
power of two the steps are no wider than there, which bounds the error by a constant; and no step is
wider than one part in `2 ^ 52` of the number, which bounds it by a part of the number. A span that
is turned into seconds is rounded three times, and both bounds add up.
-/
import SecretRenewal.Binary64.Seconds
import SecretRenewal.Proofs.Binary64.Powers

namespace SecretRenewal

/-- Two numbers that are no further apart than a third. -/
structure Near (slack first second : Nat) : Prop where
  le : first ≤ second + slack
  ge : second ≤ first + slack

namespace Near

variable {slack wider first second count : Nat}

theorem mono (near : Near slack first second) (le : slack ≤ wider) : Near wider first second :=
  ⟨Nat.le_trans near.le (Nat.add_le_add_left le _), Nat.le_trans near.ge (Nat.add_le_add_left le _)⟩

theorem scaled {times : Nat} (near : Near slack (times * first) (times * second)) (count : Nat) :
    Near (slack * count) (times * (first * count)) (times * (second * count)) := by
  obtain ⟨le, ge⟩ := near
  rw [← Nat.mul_assoc, ← Nat.mul_assoc]
  constructor
  · rw [← Nat.add_mul]
    exact Nat.mul_le_mul_right count le
  · rw [← Nat.add_mul]
    exact Nat.mul_le_mul_right count ge

theorem of_scaled {times : Nat} (positive : 0 < count)
    (near : Near (slack * count) (times * (first * count)) (times * (second * count))) :
    Near slack (times * first) (times * second) := by
  obtain ⟨le, ge⟩ := near
  rw [← Nat.mul_assoc, ← Nat.mul_assoc, ← Nat.add_mul] at le ge
  exact ⟨Nat.le_of_mul_le_mul_right le positive, Nat.le_of_mul_le_mul_right ge positive⟩

section

variable {whole rest exactWhole exactRest sum wholeSlack restSlack : Nat}

/-- What a sum is off by comes from the sum and from what is added. -/
theorem add_rest (isSum : Near wholeSlack (2 * sum) (2 * (whole + rest)))
    (isRest : Near restSlack (2 * rest) (2 * exactRest)) :
    Near (wholeSlack + restSlack) (2 * sum) (2 * (whole + exactRest)) := by
  obtain ⟨sumLe, sumGe⟩ := isSum
  obtain ⟨restLe, restGe⟩ := isRest
  constructor <;> omega

/-- Three errors of a part each make no more than three parts, since what is added is no more than
double of what it stands for. -/
theorem add_parts (isSum : Near (whole + rest) (2 ^ 53 * sum) (2 ^ 53 * (whole + rest)))
    (isWhole : Near exactWhole (2 ^ 53 * whole) (2 ^ 53 * exactWhole))
    (isRest : Near exactRest (2 ^ 53 * rest) (2 ^ 53 * exactRest)) :
    Near (3 * (exactWhole + exactRest)) (2 ^ 53 * sum) (2 ^ 53 * (exactWhole + exactRest)) := by
  obtain ⟨sumLe, sumGe⟩ := isSum
  obtain ⟨wholeLe, wholeGe⟩ := isWhole
  obtain ⟨restLe, restGe⟩ := isRest
  constructor <;> omega

end

end Near

namespace Binary64

/-! ### One rounding -/

/-- The step between numbers from one half up to one, in units. -/
def grain : Nat := Nat.pow 2 1021

theorem oneUnits_eq : oneUnits = 2 ^ 53 * grain := by decide +kernel

theorem exists_grain : ∃ bit, grain = 2 ^ bit := ⟨1021, by decide +kernel⟩

theorem grain_pos : 0 < grain := by
  obtain ⟨bit, isPower⟩ := exists_grain
  rw [isPower]
  exact Nat.two_pow_pos bit

theorem nanos_le_oneUnits : 2 ^ 60 * nanosPerSecond ≤ oneUnits := by decide +kernel

attribute [local irreducible] oneUnits limitUnits grain

section

variable {numerator denominator : Nat}

theorem near_roundHalfEven (positive : 0 < denominator) :
    Near denominator (2 * (roundHalfEven numerator denominator * denominator)) (2 * numerator) :=
  ⟨two_mul_roundHalfEven_le numerator denominator, le_two_mul_roundHalfEven positive⟩

/-- A number is rounded by half a step at most. -/
theorem near_roundUnits (positive : 0 < denominator) :
    Near (denominator * 2 ^ scaleOf (numerator / denominator))
      (2 * (roundUnits numerator denominator * denominator)) (2 * numerator) := by
  unfold roundUnits
  show Near _ (2 * (roundHalfEven numerator (denominator * 2 ^ _) * 2 ^ _ * denominator)) _
  rw [Nat.mul_assoc _ _ denominator, Nat.mul_comm _ denominator]
  exact near_roundHalfEven (Nat.mul_pos positive (Nat.two_pow_pos _))

/-- Below a power of two a number is rounded by half a step of those just below it at most. -/
theorem near_roundUnits_of_lt (bit : Nat) (positive : 0 < denominator)
    (less : numerator < oneUnits * 2 ^ bit * denominator) :
    Near (denominator * (grain * 2 ^ bit))
      (2 * (roundUnits numerator denominator * denominator)) (2 * numerator) := by
  obtain ⟨base, isPower⟩ := exists_grain
  rw [oneUnits_eq, isPower, Nat.mul_assoc (2 ^ 53), ← Nat.pow_add] at less
  have scale : scaleOf (numerator / denominator) ≤ base + bit :=
    scaleOf_le_of_lt ((Nat.div_lt_iff_lt_mul positive).mpr less)
  rw [isPower, ← Nat.pow_add]
  exact (near_roundUnits positive).mono
    (Nat.mul_le_mul_left _ (Nat.pow_le_pow_right (by decide) scale))

/-- A number of at least `2 ^ 52` units is rounded by one part in `2 ^ 53` at most. -/
theorem near_roundUnits_part (positive : 0 < denominator)
    (large : numerator ≠ 0 → 2 ^ 52 * denominator ≤ numerator) :
    Near numerator (2 ^ 53 * (roundUnits numerator denominator * denominator))
      (2 ^ 53 * numerator) := by
  by_cases none : numerator = 0
  · rw [none, roundUnits_zero positive, Nat.zero_mul]
    exact ⟨Nat.le_refl _, Nat.le_refl _⟩
  · have near := @near_roundUnits numerator _ positive
    have step : 2 ^ 52 * (denominator * 2 ^ scaleOf (numerator / denominator)) ≤ numerator := by
      rw [← Nat.mul_assoc]
      by_cases narrow : scaleOf (numerator / denominator) = 0
      · rw [narrow, Nat.pow_zero, Nat.mul_one]
        exact large none
      · rw [Nat.mul_right_comm]
        exact (Nat.le_div_iff_mul_le positive).mp (step_le narrow)
    refine ⟨?_, ?_⟩
    · have le := near.le
      omega
    · have ge := near.ge
      omega

/-- A whole number of units is rounded by one part in `2 ^ 53` at most. -/
theorem near_roundUnits_one (units : Nat) :
    Near units (2 ^ 53 * roundUnits units 1) (2 ^ 53 * units) := by
  by_cases few : units < 2 ^ 53
  · have exact := @roundUnits_of_exact 1 units few 0 Nat.one_pos
    rw [Nat.pow_zero, Nat.mul_one, Nat.mul_one] at exact
    rw [exact]
    exact ⟨Nat.le_add_right .., Nat.le_add_right ..⟩
  · have near := @near_roundUnits_part units 1 Nat.one_pos fun _ => by omega
    rwa [Nat.mul_one] at near

end

namespace Datum

/-- A natural number of fifty-three bits is exact. -/
theorem ofNat_of_lt {value : Nat} (few : value < 2 ^ 53) :
    ofNat value = .finite false (value * oneUnits) := by
  have exact := roundUnits_mul_oneUnits few Nat.one_pos
  rw [Nat.mul_one] at exact
  have le : value * oneUnits ≤ oneUnits * 2 ^ 53 := by
    rw [Nat.mul_comm value]
    exact Nat.mul_le_mul_left _ (Nat.le_of_lt few)
  have bounded : roundUnits (value * oneUnits) 1 < limitUnits := by
    rw [exact]
    exact @lt_limitUnits_of_le 53 _ (by decide) le
  unfold ofNat
  rw [nearest_of_lt bounded, exact]

theorem div_finite (first : Nat) {second : Nat} (nonzero : second ≠ 0) :
    (finite false first).div (finite false second) = nearest false (first * oneUnits) second := by
  show (if second = 0 then _ else nearest false (first * oneUnits) second) = _
  exact if_neg nonzero

theorem add_finite (first second : Nat) :
    (finite false first).add (finite false second) = nearest false (first + second) 1 := rfl

end Datum

end Binary64

namespace Duration

open Binary64

attribute [local irreducible] oneUnits limitUnits grain

/-! ### Seconds of a span -/

variable (span : Duration)

/-- The whole seconds of a span, in units. -/
def wholeUnits : Nat := roundUnits (span.seconds * oneUnits) 1

/-- The rest of a span, in units. -/
def restUnits : Nat :=
  roundUnits (span.subsecond * oneUnits * oneUnits) (nanosPerSecond * oneUnits)

/-- The seconds of a span, in units. -/
def secondsUnits : Nat := roundUnits (span.wholeUnits + span.restUnits) 1

theorem wholeUnits_le : span.wholeUnits ≤ oneUnits * 2 ^ 64 := by
  refine roundUnits_le_scaled Nat.one_pos ?_
  rw [Nat.mul_one, Nat.mul_comm]
  exact Nat.mul_le_mul_left _ (Nat.le_of_lt span.seconds_lt)

theorem rest_le : span.subsecond * oneUnits * oneUnits ≤
    oneUnits * 2 ^ 0 * (nanosPerSecond * oneUnits) := by
  rw [Nat.pow_zero, Nat.mul_one, Nat.mul_comm oneUnits]
  exact Nat.mul_le_mul_right _ (Nat.mul_le_mul_right _ (Nat.le_of_lt span.subsecond_lt))

theorem restDenominator_pos : 0 < nanosPerSecond * oneUnits :=
  Nat.mul_pos (by decide) oneUnits_pos

theorem toSeconds_eq : span.toSeconds = .finite false span.secondsUnits := by
  have whole : Datum.ofNat span.seconds = .finite false span.wholeUnits :=
    Datum.nearest_of_le Nat.one_pos (by decide : 64 < 1024) (by
      rw [Nat.mul_one, Nat.mul_comm]
      exact Nat.mul_le_mul_left _ (Nat.le_of_lt span.seconds_lt))
  have rest : (Datum.ofNat span.subsecond).div (Datum.ofNat nanosPerSecond) =
      .finite false span.restUnits := by
    rw [Datum.ofNat_of_lt (Nat.lt_trans span.subsecond_lt (by decide)),
      @Datum.ofNat_of_lt nanosPerSecond (by decide),
      Datum.div_finite _ (Nat.ne_of_gt restDenominator_pos)]
    exact Datum.nearest_of_le restDenominator_pos (by decide) span.rest_le
  have sum : span.wholeUnits + span.restUnits ≤ oneUnits * 2 ^ 65 * 1 := by
    have wholeLe := span.wholeUnits_le
    have restLe : span.restUnits ≤ oneUnits * 2 ^ 0 :=
      roundUnits_le_scaled restDenominator_pos span.rest_le
    omega
  unfold toSeconds
  rw [whole, rest, Datum.add_finite]
  exact Datum.nearest_of_le Nat.one_pos (by decide) sum

/-! ### Errors of seconds -/

variable {span}

theorem nanos_eq : span.nanos = span.seconds * nanosPerSecond + span.subsecond :=
  (Nat.div_add_mod' span.nanos nanosPerSecond).symm

theorem nanos_mul_oneUnits : span.nanos * oneUnits =
    span.seconds * oneUnits * nanosPerSecond + span.subsecond * oneUnits := by
  rw [nanos_eq, Nat.add_mul, Nat.mul_right_comm]

/-- The part of a second is off by far less than a nanosecond. -/
theorem near_restUnits : Near (grain * nanosPerSecond) (2 * (span.restUnits * nanosPerSecond))
    (2 * (span.subsecond * oneUnits)) := by
  have less : span.subsecond * oneUnits * oneUnits <
      oneUnits * 2 ^ 0 * (nanosPerSecond * oneUnits) := by
    rw [Nat.pow_zero, Nat.mul_one, Nat.mul_comm oneUnits]
    refine Nat.mul_lt_mul_of_pos_right ?_ oneUnits_pos
    exact Nat.mul_lt_mul_of_pos_right span.subsecond_lt oneUnits_pos
  have near : Near _ (2 * (span.restUnits * (nanosPerSecond * oneUnits))) _ :=
    near_roundUnits_of_lt 0 restDenominator_pos less
  rw [Nat.pow_zero, Nat.mul_one, Nat.mul_right_comm, Nat.mul_comm nanosPerSecond grain,
    ← Nat.mul_assoc span.restUnits] at near
  exact near.of_scaled oneUnits_pos

theorem restUnits_lt : span.restUnits < oneUnits := by
  have near := (@near_restUnits span).le
  have less : span.subsecond * oneUnits ≤ (nanosPerSecond - 1) * oneUnits :=
    Nat.mul_le_mul_right _ (Nat.le_sub_one_of_lt span.subsecond_lt)
  have positive := grain_pos
  rw [oneUnits_eq] at near less ⊢
  unfold nanosPerSecond at near less
  omega

theorem wholeUnits_of_lt (few : span.seconds < 2 ^ 53) :
    span.wholeUnits = span.seconds * oneUnits := by
  have exact := roundUnits_mul_oneUnits few Nat.one_pos
  rwa [Nat.mul_one] at exact

/-- The seconds of a span below a power of two are off by half a step just below it at most, but
for the part of a second. -/
theorem near_secondsUnits {bit : Nat} (few : span.seconds < 2 ^ bit) (small : bit ≤ 53) :
    Near (grain * 2 ^ bit * nanosPerSecond + grain * nanosPerSecond)
      (2 * (span.secondsUnits * nanosPerSecond)) (2 * (span.nanos * oneUnits)) := by
  have whole := wholeUnits_of_lt
    (Nat.lt_of_lt_of_le few (Nat.pow_le_pow_right (by decide) small))
  have less : span.wholeUnits + span.restUnits < oneUnits * 2 ^ bit * 1 := by
    have most : (span.seconds + 1) * oneUnits ≤ 2 ^ bit * oneUnits :=
      Nat.mul_le_mul_right _ few
    have rest := @restUnits_lt span
    rw [Nat.add_one_mul] at most
    rw [whole, Nat.mul_one, Nat.mul_comm oneUnits]
    omega
  have sum : Near _ (2 * (span.secondsUnits * 1)) _ := near_roundUnits_of_lt bit Nat.one_pos less
  rw [Nat.one_mul, Nat.mul_one, whole] at sum
  have inNanos := sum.scaled nanosPerSecond
  rw [Nat.add_mul] at inNanos
  rw [nanos_mul_oneUnits]
  exact inNanos.add_rest near_restUnits

theorem near_restUnits_part : Near (span.subsecond * oneUnits)
    (2 ^ 53 * (span.restUnits * nanosPerSecond)) (2 ^ 53 * (span.subsecond * oneUnits)) := by
  have large : span.subsecond * oneUnits * oneUnits ≠ 0 →
      2 ^ 52 * (nanosPerSecond * oneUnits) ≤ span.subsecond * oneUnits * oneUnits := by
    intro some
    have positive : 0 < span.subsecond :=
      Nat.pos_of_ne_zero fun none => some (by rw [none, Nat.zero_mul, Nat.zero_mul])
    have once := Nat.le_mul_of_pos_left oneUnits positive
    have unit := nanos_le_oneUnits
    rw [← Nat.mul_assoc]
    refine Nat.mul_le_mul_right _ (Nat.le_trans ?_ once)
    omega
  have near : Near _ (2 ^ 53 * (span.restUnits * (nanosPerSecond * oneUnits))) _ :=
    near_roundUnits_part restDenominator_pos large
  rw [← Nat.mul_assoc span.restUnits] at near
  exact near.of_scaled oneUnits_pos

/-- The seconds of any span are off by three parts in `2 ^ 53` at most. -/
theorem near_secondsUnits_part : Near (3 * (span.nanos * oneUnits))
    (2 ^ 53 * (span.secondsUnits * nanosPerSecond)) (2 ^ 53 * (span.nanos * oneUnits)) := by
  have whole : Near _ (2 ^ 53 * span.wholeUnits) _ := near_roundUnits_one (span.seconds * oneUnits)
  have sum : Near _ (2 ^ 53 * span.secondsUnits) _ :=
    near_roundUnits_one (span.wholeUnits + span.restUnits)
  have inNanos := sum.scaled nanosPerSecond
  rw [Nat.add_mul] at inNanos
  rw [nanos_mul_oneUnits]
  exact inNanos.add_parts (whole.scaled nanosPerSecond) near_restUnits_part

/-- Seconds that are not none at all are many units. -/
theorem secondsUnits_large (some : span.secondsUnits ≠ 0) : 2 ^ 52 ≤ span.secondsUnits := by
  obtain ⟨nearLe, nearGe⟩ := @near_secondsUnits_part span
  have unit := nanos_le_oneUnits
  have positive : 0 < span.nanos := by
    refine Nat.pos_of_ne_zero fun none => some ?_
    rw [none, Nat.zero_mul] at nearLe
    have product : span.secondsUnits * nanosPerSecond = 0 := by omega
    exact (Nat.mul_eq_zero.mp product).resolve_right (by decide)
  have once := Nat.le_mul_of_pos_left oneUnits positive
  have less : 2 ^ 52 * nanosPerSecond ≤ span.secondsUnits * nanosPerSecond := by
    generalize oneUnits = one at *
    generalize nanosPerSecond = second at *
    omega
  exact Nat.le_of_mul_le_mul_right less (by decide)

end Duration

end SecretRenewal
