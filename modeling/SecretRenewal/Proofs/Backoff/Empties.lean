/-
This file computes the delays that start from nothing. Nothing times a finite factor is nothing, but
nothing times an infinite one is no number, and what is no number is answered with the largest delay
as a product that is too long would be. So such a policy does not wait until its factor leaves the
finite numbers, and from then on it waits for the longest it may.
-/
import SecretRenewal.Proofs.Backoff.Doubling
import SecretRenewal.Proofs.Binary64.Magnitudes

namespace SecretRenewal

open Binary64

theorem Duration.toSeconds_zero : Duration.zero.toSeconds = Datum.zero := by decide +kernel

attribute [local irreducible] oneUnits limitUnits

/-! ### Products of nothing -/

namespace Binary64

theorem nearest_zero (negative : Bool) {denominator : Nat} (positive : 0 < denominator) :
    nearest negative 0 denominator = .finite negative 0 := by
  have exact := roundUnits_zero positive
  have bounded : roundUnits 0 denominator < limitUnits := by
    rw [exact]
    exact @lt_limitUnits_of_le 0 0 (by decide) (Nat.zero_le _)
  rw [Datum.nearest_of_lt bounded, exact]

end Binary64

namespace Duration

theorem zero_min (limit : Duration) : min zero limit = zero :=
  ext (by rw [nanos_min]; exact Nat.zero_min _)

theorem zero_scaledBy?_finite (negative : Bool) (units : Nat) :
    zero.scaledBy? (.finite negative units) = some zero := by
  have product : Datum.zero.mul (.finite negative units) = .finite (false != negative) 0 := by
    show nearest (false != negative) (0 * units) oneUnits = _
    rw [Nat.zero_mul, nearest_zero _ oneUnits_pos]
  have rounded : roundHalfEven (0 * nanosPerSecond) oneUnits = 0 := by
    have exact := roundHalfEven_mul 0 oneUnits_pos
    rwa [Nat.zero_mul] at exact ⊢
  have small : ¬ secondsLimit * oneUnits ≤ 0 :=
    Nat.not_le_of_lt (Nat.mul_pos (by decide) oneUnits_pos)
  unfold scaledBy?
  rw [toSeconds_zero, product]
  unfold ofSeconds?
  dsimp only
  rw [if_neg small, rounded]
  cases negative <;> rfl

theorem zero_scaledBy?_infinite (negative : Bool) :
    zero.scaledBy? (.infinite negative) = none := by
  unfold scaledBy?
  rw [toSeconds_zero]
  rfl

end Duration

namespace Backoff

/-! ### Delays of nothing -/

theorem isUnit_infinite (negative : Bool) : isUnit (.infinite negative) = false := rfl

section

variable {policy : Backoff}

theorem baseDelay_of_finite (empty : policy.initialDelay = .zero) {attempt : UInt32}
    {negative : Bool} {units : Nat} (isFinite : policy.factor attempt = .finite negative units) :
    policy.baseDelay attempt = .zero := by
  unfold baseDelay
  dsimp only
  rw [isFinite, empty, Duration.zero_scaledBy?_finite, Option.getD_some, ite_self]
  exact Duration.zero_min _

theorem baseDelay_of_infinite (empty : policy.initialDelay = .zero) {attempt : UInt32}
    {negative : Bool} (isInfinite : policy.factor attempt = .infinite negative) :
    policy.baseDelay attempt = policy.maxDelay := by
  unfold baseDelay
  dsimp only
  rw [isInfinite, empty, Duration.zero_scaledBy?_infinite, isUnit_infinite,
    if_neg Bool.false_ne_true, Option.getD_none]
  show (if _ then _ else _) = _
  exact ite_self _

end

/-! ### Factors -/

section

variable {policy : Backoff} {negative : Bool} {units : Nat}
  (isFinite : policy.multiplier.datum = .finite negative units)

include isFinite

theorem isFinite_factor {bit : Nat} {attempt : UInt32} (small : units ≤ oneUnits * 2 ^ bit)
    (few : bit * attempt.toNat < 1024) :
    ∃ sign magnitude, policy.factor attempt = .finite sign magnitude := by
  have le : bit * min attempt.toNat maxExponent ≤ bit * attempt.toNat :=
    Nat.mul_le_mul_left bit (Nat.min_le_left ..)
  have isWithin : (Datum.finite false units).IsWithin bit := ⟨units, small, rfl⟩
  have power := isWithin.power (Nat.lt_of_le_of_lt le few)
  unfold factor
  rw [isFinite]
  exact Datum.exists_finite_of_abs (Datum.abs_power (.finite negative units) _ ▸ power)

variable (notBelow : policy.multiplier.datum.lt .zero = false)

include notBelow

/-- Only zero has a sign here. -/
theorem eq_zero_of_negative (isNegative : negative = true) : units = 0 := by
  rw [isFinite, isNegative] at notBelow
  have notPositive : ¬ 0 < units + 0 := of_decide_eq_false notBelow
  omega

theorem reaches_factor {bit : Nat} (large : oneUnits * 2 ^ bit ≤ units) (attempt : UInt32) :
    (policy.factor attempt).Reaches (bit * min attempt.toNat maxExponent) := by
  have positive : 0 < units :=
    Nat.lt_of_lt_of_le (Nat.mul_pos oneUnits_pos (Nat.two_pow_pos bit)) large
  have isPositive : negative = false := Bool.eq_false_iff.mpr fun isNegative =>
    Nat.ne_of_gt positive (eq_zero_of_negative isFinite notBelow isNegative)
  have reaches : (Datum.finite false units).Reaches bit :=
    .finite large (lt_limitUnits_of_datum isFinite)
  unfold factor
  rw [isFinite, isPositive]
  exact reaches.power _

theorem infinite_factor {bit : Nat} {attempt : UInt32} (large : oneUnits * 2 ^ bit ≤ units)
    (many : 1024 ≤ bit * attempt.toNat) : policy.factor attempt = .infinite false := by
  refine (reaches_factor isFinite notBelow large attempt).eq_infinite ?_
  rcases Nat.le_total attempt.toNat maxExponent with less | more
  · rwa [Nat.min_eq_left less]
  · have some : 0 < bit := Nat.pos_of_ne_zero fun none => by
      rw [none, Nat.zero_mul] at many
      exact absurd many (by decide)
    -- The exponent is cut off, but far beyond 1024.
    rw [Nat.min_eq_right more]
    exact Nat.le_trans (by decide) (Nat.le_mul_of_pos_left maxExponent some)

/-- The factor is a number, so it is finite or infinite. -/
theorem finite_or_infinite_factor (attempt : UInt32) :
    (∃ sign magnitude, policy.factor attempt = .finite sign magnitude) ∨
      policy.factor attempt = .infinite false := by
  rcases Nat.le_total units (oneUnits * 2 ^ 0) with small | large
  · exact .inl (isFinite_factor isFinite small (by rw [Nat.zero_mul]; decide))
  · have reaches := reaches_factor isFinite notBelow large attempt
    generalize policy.factor attempt = factor at reaches
    cases reaches with
    | infinite => exact .inr rfl
    | @finite magnitude => exact .inl ⟨false, magnitude, rfl⟩

end

/-! ### Delays from nothing -/

/-- A policy that starts from nothing and is not lengthened does not wait as long as its factor is
finite. Once it is infinite the policy waits its largest delay. A multiplier up to a power of two
keeps the factor finite while the exponents come to less than 1024, and one from that power on makes
it infinite when they no longer do. -/
theorem empty_delay_until_infinite {policy : Backoff} (plain : policy.jitter = false)
    (empty : policy.initialDelay = .zero) {negative : Bool} {units : Nat}
    (isFinite : policy.multiplier.datum = .finite negative units)
    (notBelow : policy.multiplier.datum.lt .zero = false) (attempt : UInt32) (draw : Datum) :
    ((∃ sign magnitude, policy.factor attempt = .finite sign magnitude) ∧
        policy.delay attempt draw = .zero ∨
      policy.factor attempt = .infinite false ∧ policy.delay attempt draw = policy.maxDelay) ∧
    (∀ bit, units ≤ oneUnits * 2 ^ bit → bit * attempt.toNat < 1024 →
      policy.delay attempt draw = .zero) ∧
    ∀ bit, oneUnits * 2 ^ bit ≤ units → 1024 ≤ bit * attempt.toNat →
      policy.delay attempt draw = policy.maxDelay := by
  rw [delay_of_plain plain]
  refine ⟨?_, fun bit small few => ?_, fun bit large many => ?_⟩
  · rcases finite_or_infinite_factor isFinite notBelow attempt with ⟨sign, magnitude, isFactor⟩ |
      isFactor
    · exact .inl ⟨⟨sign, magnitude, isFactor⟩, baseDelay_of_finite empty isFactor⟩
    · exact .inr ⟨isFactor, baseDelay_of_infinite empty isFactor⟩
  · obtain ⟨sign, magnitude, isFactor⟩ := isFinite_factor isFinite small few
    exact baseDelay_of_finite empty isFactor
  · exact baseDelay_of_infinite empty (infinite_factor isFinite notBelow large many)

/-- Doubling from nothing, up to ten seconds. -/
def doublingFromNothing : Backoff :=
  { standard with initialDelay := .zero, jitter := false }

theorem datum_doublingFromNothing : doublingFromNothing.multiplier.datum = Datum.two :=
  datum_standard

theorem notBelow_doublingFromNothing : doublingFromNothing.multiplier.datum.lt .zero = false := by
  rw [datum_doublingFromNothing]
  exact @decide_eq_false (oneUnits * 2 ^ 1 < 0) _ (Nat.not_lt_zero _)

/-- Doubled 1023 times, nothing is still nothing. -/
theorem empty_delay_until_infinite_of_doubling :
    doublingFromNothing.jitter = false ∧ doublingFromNothing.initialDelay = .zero ∧
      doublingFromNothing.multiplier.datum = Datum.two ∧
      doublingFromNothing.multiplier.datum.lt .zero = false ∧
      doublingFromNothing.delay 1023 .zero = .zero :=
  have delays := @empty_delay_until_infinite doublingFromNothing rfl rfl false (oneUnits * 2 ^ 1)
    datum_doublingFromNothing notBelow_doublingFromNothing 1023 .zero
  ⟨rfl, rfl, datum_doublingFromNothing, notBelow_doublingFromNothing,
    delays.2.1 1 (Nat.le_refl _) (by decide)⟩

/-- Doubled once more, it is ten seconds. -/
theorem nothing_becomes_largest : doublingFromNothing.jitter = false ∧
    doublingFromNothing.initialDelay = .zero ∧
    doublingFromNothing.multiplier.datum = Datum.two ∧
    doublingFromNothing.delay 1024 .zero = Duration.ofMillis 10000 ∧
    Duration.ofMillis 10000 ≠ .zero := by
  have isFactor : doublingFromNothing.factor 1024 = .infinite false :=
    @infinite_factor doublingFromNothing false (oneUnits * 2 ^ 1)
      datum_doublingFromNothing notBelow_doublingFromNothing 1 1024 (Nat.le_refl _) (by decide)
  refine ⟨rfl, rfl, datum_doublingFromNothing, ?_, by decide⟩
  rw [delay_of_plain rfl, baseDelay_of_infinite rfl isFactor]
  rfl

end Backoff

end SecretRenewal
