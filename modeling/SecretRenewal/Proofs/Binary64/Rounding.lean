/-
This file says what rounding does to a quotient. The natural number nearest to it is no further away
than half a unit, so rounding respects the order, and a natural number is its own rounding. Rounding
to fifty-three bits does the same in steps that get wider from one power of two to the next. Every
power of two is on the way of these steps, so no quotient is rounded past one; that makes rounding
to fifty-three bits respect the order as well. What was rounded stays as it is when it is rounded
again.
-/
import SecretRenewal.Binary64.Basic
import Mathlib.Algebra.Group.Nat.Defs

namespace SecretRenewal.Binary64

/-! ### To a natural number -/

theorem roundHalfEven_cases (numerator denominator : Nat) :
    (roundHalfEven numerator denominator = numerator / denominator ∧
      2 * (numerator % denominator) ≤ denominator) ∨
    (roundHalfEven numerator denominator = numerator / denominator + 1 ∧
      denominator ≤ 2 * (numerator % denominator)) := by
  unfold roundHalfEven
  dsimp only
  split
  · next below => exact .inl ⟨rfl, Nat.le_of_lt below⟩
  · next notBelow =>
    split
    · next above => exact .inr ⟨rfl, Nat.le_of_lt above⟩
    · next notAbove =>
      split
      · exact .inl ⟨rfl, Nat.le_of_not_lt notAbove⟩
      · exact .inr ⟨rfl, Nat.le_of_not_lt notBelow⟩

/-- A quotient is rounded up by half a unit at most. -/
theorem two_mul_roundHalfEven_le (numerator denominator : Nat) :
    2 * (roundHalfEven numerator denominator * denominator) ≤ 2 * numerator + denominator := by
  have parts := Nat.div_add_mod' numerator denominator
  rcases roundHalfEven_cases numerator denominator with ⟨down, -⟩ | ⟨up, far⟩
  · rw [down]
    omega
  · rw [up, Nat.add_one_mul (numerator / denominator)]
    omega

/-- A quotient is rounded down by half a unit at most. -/
theorem le_two_mul_roundHalfEven {numerator denominator : Nat} (positive : 0 < denominator) :
    2 * numerator ≤ 2 * (roundHalfEven numerator denominator * denominator) + denominator := by
  have parts := Nat.div_add_mod' numerator denominator
  have rest := Nat.mod_lt numerator positive
  rcases roundHalfEven_cases numerator denominator with ⟨down, near⟩ | ⟨up, -⟩
  · rw [down]
    omega
  · rw [up, Nat.add_one_mul (numerator / denominator)]
    omega

theorem roundHalfEven_mono {first second denominator : Nat} (positive : 0 < denominator)
    (le : first ≤ second) :
    roundHalfEven first denominator ≤ roundHalfEven second denominator := by
  refine Nat.le_of_not_lt fun greater => ?_
  have raised := two_mul_roundHalfEven_le first denominator
  have lowered := @le_two_mul_roundHalfEven second _ positive
  have apart := Nat.mul_le_mul_right denominator (Nat.succ_le_of_lt greater)
  rw [Nat.succ_mul] at apart
  have same : first = second := by omega
  rw [same] at greater
  exact Nat.lt_irrefl _ greater

/-- A natural number is its own rounding. -/
theorem roundHalfEven_mul (count : Nat) {denominator : Nat} (positive : 0 < denominator) :
    roundHalfEven (count * denominator) denominator = count := by
  rcases roundHalfEven_cases (count * denominator) denominator with ⟨down, -⟩ | ⟨-, far⟩
  · rw [down, Nat.mul_div_cancel _ positive]
  · rw [Nat.mul_mod_left] at far
    omega

theorem le_roundHalfEven {count numerator denominator : Nat} (positive : 0 < denominator)
    (le : count * denominator ≤ numerator) : count ≤ roundHalfEven numerator denominator := by
  rw [← roundHalfEven_mul count positive]
  exact roundHalfEven_mono positive le

theorem roundHalfEven_le {count numerator denominator : Nat} (positive : 0 < denominator)
    (le : numerator ≤ count * denominator) : roundHalfEven numerator denominator ≤ count := by
  rw [← roundHalfEven_mul count positive]
  exact roundHalfEven_mono positive le

/-! ### How wide the steps are -/

theorem lt_step (units : Nat) : units < 2 ^ 53 * 2 ^ scaleOf units := by
  unfold scaleOf
  split
  · next small => rwa [Nat.pow_zero, Nat.mul_one]
  · next notSmall =>
    have large : 2 ^ 53 ≤ units := Nat.le_of_not_lt notSmall
    have bits : 53 ≤ units.log2 := (Nat.le_log2 (by omega)).mpr large
    rw [← Nat.pow_add, show 53 + (units.log2 - 52) = units.log2 + 1 by omega]
    exact Nat.lt_log2_self

theorem step_le {units : Nat} (wide : scaleOf units ≠ 0) : 2 ^ 52 * 2 ^ scaleOf units ≤ units := by
  unfold scaleOf at wide ⊢
  split at wide
  · exact absurd rfl wide
  · next notSmall =>
    have large : 2 ^ 53 ≤ units := Nat.le_of_not_lt notSmall
    have bits : 53 ≤ units.log2 := (Nat.le_log2 (by omega)).mpr large
    rw [if_neg notSmall, ← Nat.pow_add, show 52 + (units.log2 - 52) = units.log2 by omega]
    exact Nat.log2_self_le (by omega)

/-- A number that fifty-three bits hold in steps of a width needs no wider ones. -/
theorem scaleOf_le_of_lt {units bit : Nat} (less : units < 2 ^ 53 * 2 ^ bit) :
    scaleOf units ≤ bit := by
  by_cases none : scaleOf units = 0
  · rw [none]
    exact Nat.zero_le _
  · have between := Nat.lt_of_le_of_lt (step_le none) less
    rw [← Nat.pow_add, ← Nat.pow_add] at between
    have := (Nat.pow_lt_pow_iff_right (by decide)).mp between
    omega

theorem scaleOf_mono {first second : Nat} (le : first ≤ second) :
    scaleOf first ≤ scaleOf second :=
  scaleOf_le_of_lt (Nat.lt_of_le_of_lt le (lt_step second))

/-! ### To fifty-three bits -/

section

variable {numerator denominator : Nat}

/-- Where steps are wider than one unit, a quotient is rounded to no less than the smallest number
with steps as wide. -/
theorem step_le_roundUnits (positive : 0 < denominator)
    (wide : scaleOf (numerator / denominator) ≠ 0) :
    2 ^ 52 * 2 ^ scaleOf (numerator / denominator) ≤ roundUnits numerator denominator := by
  have steps := (Nat.le_div_iff_mul_le positive).mp (step_le wide)
  refine Nat.mul_le_mul_right _ (le_roundHalfEven ?_ ?_)
  · exact Nat.mul_pos positive (Nat.two_pow_pos _)
  · rwa [Nat.mul_comm denominator, ← Nat.mul_assoc]

/-- A quotient is rounded to no more than the first number with wider steps. -/
theorem roundUnits_le_step (positive : 0 < denominator) :
    roundUnits numerator denominator ≤ 2 ^ 53 * 2 ^ scaleOf (numerator / denominator) := by
  have below := (Nat.div_lt_iff_lt_mul positive).mp (lt_step (numerator / denominator))
  refine Nat.mul_le_mul_right _ (roundHalfEven_le ?_ ?_)
  · exact Nat.mul_pos positive (Nat.two_pow_pos _)
  · show _ ≤ 2 ^ 53 * (denominator * 2 ^ _)
    rw [Nat.mul_comm denominator, ← Nat.mul_assoc]
    exact Nat.le_of_lt below

theorem roundUnits_mono {first second : Nat} (positive : 0 < denominator) (le : first ≤ second) :
    roundUnits first denominator ≤ roundUnits second denominator := by
  have scales : scaleOf (first / denominator) ≤ scaleOf (second / denominator) :=
    scaleOf_mono (Nat.div_le_div_right le)
  rcases Nat.eq_or_lt_of_le scales with same | wider
  · unfold roundUnits
    rw [same]
    exact Nat.mul_le_mul_right _
      (roundHalfEven_mono (Nat.mul_pos positive (Nat.two_pow_pos _)) le)
  -- The number at which the steps of the first get wider lies between the two.
  · calc roundUnits first denominator
      _ ≤ 2 ^ 53 * 2 ^ scaleOf (first / denominator) := roundUnits_le_step positive
      _ ≤ 2 ^ 52 * 2 ^ scaleOf (second / denominator) := by
        rw [← Nat.pow_add, ← Nat.pow_add]
        exact Nat.pow_le_pow_right (by decide) (by omega)
      _ ≤ roundUnits second denominator := step_le_roundUnits positive (by omega)

/-- A number that fifty-three bits hold is its own rounding. -/
theorem roundUnits_of_exact {count : Nat} (few : count < 2 ^ 53) (bit : Nat)
    (positive : 0 < denominator) :
    roundUnits (count * 2 ^ bit * denominator) denominator = count * 2 ^ bit := by
  unfold roundUnits
  rw [Nat.mul_div_cancel _ positive]
  have narrow : scaleOf (count * 2 ^ bit) ≤ bit :=
    scaleOf_le_of_lt (Nat.mul_lt_mul_of_pos_right few (Nat.two_pow_pos bit))
  have parts : 2 ^ (bit - scaleOf (count * 2 ^ bit)) * 2 ^ scaleOf (count * 2 ^ bit) = 2 ^ bit := by
    rw [← Nat.pow_add, Nat.sub_add_cancel narrow]
  generalize scaleOf (count * 2 ^ bit) = scale at parts ⊢
  show roundHalfEven (count * 2 ^ bit * denominator) (denominator * 2 ^ scale) * 2 ^ scale = _
  rw [← parts, ← Nat.mul_assoc count, Nat.mul_assoc _ _ denominator, Nat.mul_comm _ denominator,
    roundHalfEven_mul _ (Nat.mul_pos positive (Nat.two_pow_pos scale))]

theorem roundUnits_zero (positive : 0 < denominator) : roundUnits 0 denominator = 0 := by
  have exact := @roundUnits_of_exact denominator 0 (by decide) 0 positive
  rwa [Nat.zero_mul, Nat.zero_mul] at exact

/-- What was rounded has fifty-three bits. -/
theorem exists_exact (positive : 0 < denominator) :
    ∃ count bit, count < 2 ^ 53 ∧ roundUnits numerator denominator = count * 2 ^ bit := by
  have le := @roundUnits_le_step numerator denominator positive
  have isProduct : roundUnits numerator denominator =
      roundHalfEven numerator (denominator * 2 ^ scaleOf (numerator / denominator)) *
        2 ^ scaleOf (numerator / denominator) := rfl
  rw [isProduct] at le ⊢
  have atMost := Nat.le_of_mul_le_mul_right le (Nat.two_pow_pos _)
  rcases Nat.lt_or_eq_of_le atMost with less | same
  · exact ⟨_, _, less, rfl⟩
  · refine ⟨2 ^ 52, scaleOf (numerator / denominator) + 1, by decide, ?_⟩
    rw [same, Nat.pow_succ 2 (scaleOf _), Nat.mul_comm _ 2, ← Nat.mul_assoc]
    rfl

/-- What was rounded is its own rounding. -/
theorem roundUnits_roundUnits (positive : 0 < denominator) {other : Nat}
    (positiveOther : 0 < other) :
    roundUnits (roundUnits numerator denominator * other) other =
      roundUnits numerator denominator := by
  obtain ⟨count, bit, few, isExact⟩ := @exists_exact numerator denominator positive
  rw [isExact]
  exact roundUnits_of_exact few bit positiveOther

end

end SecretRenewal.Binary64
