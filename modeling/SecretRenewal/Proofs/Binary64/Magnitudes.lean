/-
This file is about numbers of either sign. The magnitude of a product is the product of the
magnitudes, so that of a power is the power of the magnitude, and bounds on the magnitude decide
whether the power is finite. The magnitude that bits stand for is below the first one that is too
large for them.
-/
import SecretRenewal.Proofs.Binary64.Powers

namespace SecretRenewal.Binary64

/-! ### Magnitudes of bits -/

theorem exists_limitUnits_steps :
    ∃ last, last = 2045 ∧ limitUnits = (2 ^ 52 + 2 ^ 52) * 2 ^ last :=
  ⟨2045, rfl, by decide +kernel⟩

/-- A number that bits stand for is no larger than the largest one. -/
theorem lt_limitUnits_of_datum {number : Binary64} {negative : Bool} {units : Nat}
    (isFinite : number.datum = .finite negative units) : units < limitUnits := by
  obtain ⟨last, isLast, isLimit⟩ := exists_limitUnits_steps
  have fraction : number.bits.toNat % 2 ^ 52 < 2 ^ 52 := Nat.mod_lt _ (by decide)
  have exponent : number.bits.toNat / 2 ^ 52 % 2 ^ 11 < 2 ^ 11 := Nat.mod_lt _ (by decide)
  rw [isLimit]
  unfold datum at isFinite
  dsimp only at isFinite
  split at isFinite
  · split at isFinite <;> cases isFinite
  · next notLast =>
    split at isFinite
    · cases isFinite
      exact Nat.lt_of_lt_of_le fraction (Nat.le_trans (Nat.le_add_right ..)
        (Nat.le_mul_of_pos_right _ (Nat.two_pow_pos _)))
    · cases isFinite
      refine Nat.lt_of_lt_of_le (Nat.mul_lt_mul_of_pos_right (Nat.add_lt_add_left fraction _)
        (Nat.two_pow_pos _)) (Nat.mul_le_mul_left _ (Nat.pow_le_pow_right (by decide) ?_))
      have below : number.bits.toNat / 2 ^ 52 % 2 ^ 11 ≠ 2047 := notLast
      show number.bits.toNat / 2 ^ 52 % 2 ^ 11 - 1 ≤ last
      omega

attribute [local irreducible] oneUnits limitUnits

namespace Datum

/-! ### Magnitudes of powers -/

/-- Rounding does not depend on the sign. -/
theorem abs_nearest (negative : Bool) (numerator denominator : Nat) :
    (nearest negative numerator denominator).abs = nearest false numerator denominator := by
  unfold nearest
  dsimp only
  split <;> rfl

/-- The magnitude of a product is the product of the magnitudes. -/
theorem abs_mul (first second : Datum) : (first.mul second).abs = first.abs.mul second.abs := by
  cases first with
  | nan => rfl
  | infinite negative =>
    cases second with
    | nan => rfl
    | infinite other => rfl
    | finite other units =>
      show abs (if units = 0 then nan else infinite (negative != other)) =
        if units = 0 then nan else infinite false
      split <;> rfl
  | finite negative units =>
    cases second with
    | nan => rfl
    | infinite other =>
      show abs (if units = 0 then nan else infinite (negative != other)) =
        if units = 0 then nan else infinite false
      split <;> rfl
    | finite other others => exact abs_nearest _ _ _

theorem abs_powerFrom (digits : Nat) (product base : Datum) (exponent : Nat) :
    (powerFrom digits product base exponent).abs =
      powerFrom digits product.abs base.abs exponent := by
  induction digits generalizing product base exponent with
  | zero => rfl
  | succ digits inductionHypothesis =>
    have next : (if exponent % 2 = 1 then product.mul base else product).abs =
        if exponent % 2 = 1 then product.abs.mul base.abs else product.abs := by
      split
      · exact abs_mul product base
      · rfl
    unfold powerFrom
    dsimp only
    split
    · exact next
    · rw [inductionHypothesis, next, abs_mul]

theorem abs_power (base : Datum) (exponent : Nat) :
    (base.power exponent).abs = base.abs.power exponent :=
  abs_powerFrom _ one base exponent

/-- A number within bounds is finite. -/
theorem exists_finite_of_abs {number : Datum} {bit : Nat} (isWithin : number.abs.IsWithin bit) :
    ∃ negative units, number = .finite negative units := by
  obtain ⟨units, -, isUnits⟩ := isWithin
  cases number with
  | nan => cases isUnits
  | infinite negative => cases isUnits
  | finite negative units => exact ⟨negative, units, rfl⟩

end Datum

end SecretRenewal.Binary64
