/-
This file proves that delays which double never shrink. The factors are the powers of two, exact as
long as they are finite. The first one leaves the delay as it is. With every later one the delay has
been through a rounded product, but that is at least the delay, it grows with the factor, and where
it is no span any more the largest delay stands in for it, as it does for every later one.
-/
import SecretRenewal.Proofs.Backoff.Delays
import SecretRenewal.Proofs.Binary64.Seconds

namespace SecretRenewal

open Binary64

theorem Binary64.Datum.epsilon_lt_one :
    ∃ units, epsilon = .finite false units ∧ units < oneUnits :=
  ⟨_, rfl, by decide +kernel⟩

theorem Backoff.datum_standard : standard.multiplier.datum = Datum.two := by decide +kernel

-- Comparing terms in which these occur must not compute them.
attribute [local irreducible] oneUnits limitUnits

/-! ### Distance from one -/

namespace Binary64.Datum

theorem Reaches.lt_epsilon {number : Datum} (reaches : number.Reaches 0) :
    number.abs.lt epsilon = false := by
  obtain ⟨distance, isEpsilon, small⟩ := epsilon_lt_one
  rw [isEpsilon]
  cases reaches with
  | infinite => rfl
  | @finite units large bounded =>
    rw [Nat.pow_zero, Nat.mul_one] at large
    exact decide_eq_false (Nat.not_lt_of_le (Nat.le_trans (Nat.le_of_lt small) large))

/-- What is two at least is one at least above one. -/
theorem Reaches.sub_one {number : Datum} (reaches : number.Reaches 1) :
    (number.sub one).Reaches 0 := by
  cases reaches with
  | infinite => exact .infinite
  | @finite units large bounded =>
    have less : oneUnits < units := by
      have positive := oneUnits_pos
      omega
    have difference : (Datum.finite false units).sub one = nearest false (units - oneUnits) 1 := by
      show (if false = true then nearest false (units + oneUnits) 1 else
        if oneUnits < units then nearest false (units - oneUnits) 1 else _) = _
      rw [if_neg Bool.false_ne_true, if_pos less]
    rw [difference]
    exact reaches_nearest Nat.one_pos (by omega)

end Binary64.Datum

/-! ### Doubled spans -/

namespace Duration

variable (span limit : Duration)

/-- What is no longer than a doubled span that is one is no longer than the doubled span at all, up
to a limit that stands in for what is no span. -/
theorem min_le_min_doubled {shorter : Duration} {times : Nat}
    (le : ∀ longer, times < 1024 →
      span.scaledBy? (.finite false (oneUnits * 2 ^ times)) = some longer → shorter ≤ longer) :
    min shorter limit ≤ min ((span.scaledBy? (Datum.two.power times)).getD limit) limit := by
  cases isDoubled : span.scaledBy? (Datum.two.power times) with
  | none =>
    rw [Option.getD_none, le_def, nanos_min, nanos_min]
    omega
  | some longer =>
    by_cases few : times < 1024
    · rw [Datum.two_power few] at isDoubled
      have shorterLe := le longer few isDoubled
      rw [Option.getD_some, le_def, nanos_min, nanos_min]
      rw [le_def] at shorterLe
      omega
    · -- An infinite factor gives no span.
      rw [Datum.two_power_of_le (Nat.le_of_not_lt few), span.scaledBy?_infinite] at isDoubled
      cases isDoubled

/-- A span doubled at all is no shorter than it was. -/
theorem min_le_min_doubled_self {times : Nat} (some : 0 < times) :
    min span limit ≤ min ((span.scaledBy? (Datum.two.power times)).getD limit) limit :=
  span.min_le_min_doubled limit fun _ _ isLonger => le_of_scaledBy? (scaled_le_scaled some) isLonger

/-- Doubled more often a span is no shorter. -/
theorem min_doubled_mono {earlier later : Nat} (le : earlier ≤ later) :
    min ((span.scaledBy? (Datum.two.power earlier)).getD limit) limit ≤
      min ((span.scaledBy? (Datum.two.power later)).getD limit) limit := by
  refine span.min_le_min_doubled limit fun longer few isLonger => ?_
  obtain ⟨shorter, isShorter, shorterLe⟩ := exists_le_of_scaledBy? (scaled_le_scaled le) isLonger
  rwa [Datum.two_power (Nat.lt_of_le_of_lt le few), isShorter, Option.getD_some]

end Duration

/-! ### Delays that double -/

namespace Backoff

theorem isUnit_of_reaches {factor : Datum} (reaches : factor.Reaches 1) : isUnit factor = false :=
  reaches.sub_one.lt_epsilon

theorem delay_of_plain {policy : Backoff} (plain : policy.jitter = false) (attempt : UInt32)
    (draw : Datum) : policy.delay attempt draw = policy.baseDelay attempt := by
  unfold delay
  rw [plain]
  exact if_neg Bool.false_ne_true

theorem baseDelay_le_maxDelay (policy : Backoff) (attempt : UInt32) :
    policy.baseDelay attempt ≤ policy.maxDelay := by
  unfold baseDelay
  rw [Duration.le_def, Duration.nanos_min]
  exact Nat.min_le_right ..

theorem baseDelay_first (policy : Backoff) :
    policy.baseDelay 0 = min policy.initialDelay policy.maxDelay := by
  have unit : isUnit (policy.factor 0) = true := isUnit_one
  unfold baseDelay
  dsimp only
  rw [if_pos unit]

theorem exponent_pos {attempt : UInt32} (later : attempt ≠ 0) :
    0 < min attempt.toNat maxExponent := by
  have positive : attempt.toNat ≠ 0 := fun zero => later (UInt32.toNat_inj.mp zero)
  unfold maxExponent
  omega

section

variable {policy : Backoff} (doubling : policy.multiplier = standard.multiplier)

include doubling

theorem baseDelay_doubling {attempt : UInt32} (later : attempt ≠ 0) :
    policy.baseDelay attempt =
      min ((policy.initialDelay.scaledBy?
        (Datum.two.power (min attempt.toNat maxExponent))).getD policy.maxDelay)
        policy.maxDelay := by
  have reaches : (Datum.two.power (min attempt.toNat maxExponent)).Reaches 1 :=
    (Datum.reaches_two.power _).mono (by rw [Nat.one_mul]; exact exponent_pos later)
  unfold baseDelay factor
  dsimp only
  rw [doubling, datum_standard, isUnit_of_reaches reaches, if_neg Bool.false_ne_true]

theorem baseDelay_doubling_mono {earlier later : UInt32} (le : earlier ≤ later) :
    policy.baseDelay earlier ≤ policy.baseDelay later := by
  have counts : earlier.toNat ≤ later.toNat := UInt32.le_iff_toNat_le.mp le
  by_cases atOnce : later = 0
  · have same : earlier = later := by
      rw [atOnce] at counts ⊢
      exact UInt32.toNat_inj.mp (Nat.le_zero.mp counts)
    rw [same]
    exact Nat.le_refl _
  · rw [baseDelay_doubling doubling atOnce]
    by_cases first : earlier = 0
    · rw [first, baseDelay_first]
      exact Duration.min_le_min_doubled_self _ _ (exponent_pos atOnce)
    · rw [baseDelay_doubling doubling first]
      exact Duration.min_doubled_mono _ _ (by omega)

end

/-- Without lengthening, delays that double start from the initial delay, never shrink, never exceed
the largest delay and stay there once they are there. -/
theorem doubling_delays_grow {policy : Backoff} (plain : policy.jitter = false)
    (doubling : policy.multiplier = standard.multiplier) {earlier later : UInt32}
    (le : earlier ≤ later) (first second : Datum) :
    policy.delay 0 first = min policy.initialDelay policy.maxDelay ∧
      policy.delay earlier first ≤ policy.delay later second ∧
      policy.delay later second ≤ policy.maxDelay ∧
      (policy.delay earlier first = policy.maxDelay →
        policy.delay later second = policy.maxDelay) := by
  rw [delay_of_plain plain, delay_of_plain plain, delay_of_plain plain]
  have grows := baseDelay_doubling_mono doubling le
  have bounded := policy.baseDelay_le_maxDelay later
  refine ⟨policy.baseDelay_first, grows, bounded, fun reached => ?_⟩
  rw [reached] at grows
  exact Duration.ext (Nat.le_antisymm bounded grows)

/-- Doubling from a tenth of a second up to ten seconds. -/
def doublingPlainly : Backoff := { standard with jitter := false }

/-- Nor do they where the doubled delay is far beyond every span. -/
theorem doubling_delays_grow_far :
    doublingPlainly.jitter = false ∧ doublingPlainly.multiplier = standard.multiplier ∧
      doublingPlainly.delay 3 .zero ≤ doublingPlainly.delay 4294967295 .zero :=
  have grows := @doubling_delays_grow doublingPlainly rfl rfl 3 4294967295 (by decide) .zero .zero
  ⟨rfl, rfl, grows.2.1⟩

end Backoff

end SecretRenewal
