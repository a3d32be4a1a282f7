/-
This file bounds products and powers by powers of two. A number that is at most one power of two,
times one that is at most another, is at most the power whose exponent is the sum, as long as that
is a finite number; and so from below, where too large a product is infinite. Squaring over and over
adds the exponents up in the same way, whatever is rounded in between. A number that is bounded by
one power of two from both sides is that power, so the powers of two themselves come out exactly.
-/
import SecretRenewal.Proofs.Binary64.Rounding

namespace SecretRenewal.Binary64

/-! ### Powers of two in units -/

theorem exists_oneUnits : ∃ bit, oneUnits = 2 ^ bit := ⟨1074, by decide +kernel⟩

theorem exists_limitUnits : ∃ bit, bit = 1024 ∧ limitUnits = oneUnits * 2 ^ bit :=
  ⟨1024, rfl, by decide +kernel⟩

theorem oneUnits_pos : 0 < oneUnits := by
  obtain ⟨bit, isPower⟩ := exists_oneUnits
  rw [isPower]
  exact Nat.two_pow_pos bit

theorem scaled_le_scaled {bit further : Nat} (le : bit ≤ further) :
    oneUnits * 2 ^ bit ≤ oneUnits * 2 ^ further :=
  Nat.mul_le_mul_left _ (Nat.pow_le_pow_right (by decide) le)

theorem lt_limitUnits_of_le {bit units : Nat} (few : bit < 1024)
    (le : units ≤ oneUnits * 2 ^ bit) : units < limitUnits := by
  obtain ⟨limit, isBit, isLimit⟩ := exists_limitUnits
  rw [isLimit]
  refine Nat.lt_of_le_of_lt le (Nat.mul_lt_mul_of_pos_left ?_ oneUnits_pos)
  exact Nat.pow_lt_pow_right (by decide) (isBit ▸ few)

/-- Small whole numbers are kept as they are. -/
theorem roundUnits_mul_oneUnits {count : Nat} (few : count < 2 ^ 53) {denominator : Nat}
    (positive : 0 < denominator) :
    roundUnits (count * oneUnits * denominator) denominator = count * oneUnits := by
  obtain ⟨base, isPower⟩ := exists_oneUnits
  rw [isPower]
  exact roundUnits_of_exact few base positive

/-- A power of two is its own rounding. -/
theorem roundUnits_scaled (bit : Nat) {denominator : Nat} (positive : 0 < denominator) :
    roundUnits (oneUnits * 2 ^ bit * denominator) denominator = oneUnits * 2 ^ bit := by
  obtain ⟨base, isPower⟩ := exists_oneUnits
  rw [isPower, ← Nat.pow_add, ← Nat.one_mul (2 ^ (base + bit))]
  exact roundUnits_of_exact (by decide) _ positive

/-- A number up to a power of two is rounded to one up to it. -/
theorem roundUnits_le_scaled {bit numerator denominator : Nat} (positive : 0 < denominator)
    (le : numerator ≤ oneUnits * 2 ^ bit * denominator) :
    roundUnits numerator denominator ≤ oneUnits * 2 ^ bit := by
  have mono := roundUnits_mono positive le
  rwa [roundUnits_scaled bit positive] at mono

namespace Datum

/-! ### Bounds -/

/-- A number from zero up to a power of two. -/
def IsWithin (bit : Nat) (number : Datum) : Prop :=
  ∃ units, units ≤ oneUnits * 2 ^ bit ∧ number = .finite false units

/-- A number from a power of two on, which may be infinite. -/
inductive Reaches (bit : Nat) : Datum → Prop
  | finite {units : Nat} (large : oneUnits * 2 ^ bit ≤ units) (bounded : units < limitUnits) :
      Reaches bit (.finite false units)
  | infinite : Reaches bit (.infinite false)

/-- What is within a bound is within a higher one. -/
theorem IsWithin.mono {bit further : Nat} {number : Datum} (isWithin : number.IsWithin bit)
    (le : bit ≤ further) : number.IsWithin further := by
  obtain ⟨units, small, rfl⟩ := isWithin
  exact ⟨units, Nat.le_trans small (scaled_le_scaled le), rfl⟩

theorem Reaches.mono {bit further : Nat} {number : Datum} (reaches : number.Reaches further)
    (le : bit ≤ further) : number.Reaches bit := by
  cases reaches with
  | infinite => exact .infinite
  | finite large bounded => exact .finite (Nat.le_trans (scaled_le_scaled le) large) bounded

/-- What reaches beyond all finite numbers is infinite. -/
theorem Reaches.eq_infinite {bit : Nat} {number : Datum} (reaches : number.Reaches bit)
    (beyond : 1024 ≤ bit) : number = .infinite false := by
  cases reaches with
  | infinite => rfl
  | @finite units large bounded =>
    obtain ⟨limit, isBit, isLimit⟩ := exists_limitUnits
    have above : limitUnits ≤ units := by
      rw [isLimit]
      exact Nat.le_trans (scaled_le_scaled (isBit ▸ beyond)) large
    exact absurd bounded (Nat.not_lt_of_le above)

/-- Between a power of two and itself there is nothing else. -/
theorem IsWithin.eq_of_reaches {bit : Nat} {number : Datum} (isWithin : number.IsWithin bit)
    (reaches : number.Reaches bit) : number = .finite false (oneUnits * 2 ^ bit) := by
  obtain ⟨units, small, rfl⟩ := isWithin
  cases reaches with
  | finite large bounded => rw [Nat.le_antisymm small large]

theorem one_eq : one = .finite false (oneUnits * 2 ^ 0) := by
  rw [Nat.pow_zero, Nat.mul_one, one]

theorem isWithin_one : one.IsWithin 0 := ⟨_, Nat.le_refl _, one_eq⟩

theorem reaches_one : one.Reaches 0 := by
  rw [one_eq]
  exact .finite (Nat.le_refl _) (lt_limitUnits_of_le (by decide) (Nat.le_refl _))

/-! ### Rounding within bounds -/

section

variable {bit numerator denominator : Nat}

theorem nearest_of_lt {negative : Bool} (bounded : roundUnits numerator denominator < limitUnits) :
    nearest negative numerator denominator =
      .finite negative (roundUnits numerator denominator) := by
  unfold nearest
  exact if_pos bounded

/-- A number up to a power of two that is not too large is rounded to a finite one. -/
theorem nearest_of_le (positive : 0 < denominator) (few : bit < 1024)
    (le : numerator ≤ oneUnits * 2 ^ bit * denominator) :
    nearest false numerator denominator = .finite false (roundUnits numerator denominator) :=
  nearest_of_lt (lt_limitUnits_of_le few (roundUnits_le_scaled positive le))

/-- Rounding does not cross a power of two from below. -/
theorem isWithin_nearest (positive : 0 < denominator) (few : bit < 1024)
    (le : numerator ≤ oneUnits * 2 ^ bit * denominator) :
    (nearest false numerator denominator).IsWithin bit :=
  ⟨_, roundUnits_le_scaled positive le, nearest_of_le positive few le⟩

/-- Rounding does not cross a power of two from above. -/
theorem reaches_nearest (positive : 0 < denominator)
    (le : oneUnits * 2 ^ bit * denominator ≤ numerator) :
    (nearest false numerator denominator).Reaches bit := by
  have large := roundUnits_mono positive le
  rw [roundUnits_scaled bit positive] at large
  unfold nearest
  dsimp only
  split
  · next bounded => exact .finite large bounded
  · exact .infinite

end

/-! ### Products -/

theorem mul_finite (first second : Nat) :
    (finite false first).mul (finite false second) = nearest false (first * second) oneUnits := rfl

theorem scaled_mul_scaled (first second : Nat) :
    oneUnits * 2 ^ first * (oneUnits * 2 ^ second) =
      oneUnits * 2 ^ (first + second) * oneUnits := by
  rw [Nat.mul_mul_mul_comm, ← Nat.pow_add, Nat.mul_right_comm]

section

variable {first second : Nat} {number factor : Datum}

/-- Bounds of factors add up, in powers of two. -/
theorem IsWithin.mul (isFirst : number.IsWithin first) (isSecond : factor.IsWithin second)
    (few : first + second < 1024) : (number.mul factor).IsWithin (first + second) := by
  obtain ⟨units, small, rfl⟩ := isFirst
  obtain ⟨others, smallOthers, rfl⟩ := isSecond
  rw [mul_finite]
  refine isWithin_nearest oneUnits_pos few ?_
  rw [← scaled_mul_scaled]
  exact Nat.mul_le_mul small smallOthers

theorem Reaches.mul (isFirst : number.Reaches first) (isSecond : factor.Reaches second) :
    (number.mul factor).Reaches (first + second) := by
  have nonzero {bit units : Nat} (large : oneUnits * 2 ^ bit ≤ units) : units ≠ 0 :=
    Nat.ne_of_gt (Nat.lt_of_lt_of_le (Nat.mul_pos oneUnits_pos (Nat.two_pow_pos bit)) large)
  cases isFirst with
  | infinite =>
    cases isSecond with
    | infinite => exact .infinite
    | finite large bounded =>
      show (if _ then nan else Datum.infinite _).Reaches _
      rw [if_neg (nonzero large)]
      exact .infinite
  | finite large bounded =>
    cases isSecond with
    | infinite =>
      show (if _ then nan else Datum.infinite _).Reaches _
      rw [if_neg (nonzero large)]
      exact .infinite
    | finite largeOther boundedOther =>
      rw [mul_finite]
      refine reaches_nearest oneUnits_pos ?_
      rw [← scaled_mul_scaled]
      exact Nat.mul_le_mul large largeOther

end

/-! ### Powers -/

/-- The exponents that a step of repeated squaring goes on with add up to what they were. -/
theorem halved_exponent (taken bit exponent : Nat) :
    (if exponent % 2 = 1 then taken + bit else taken) + (bit + bit) * (exponent / 2) =
      taken + bit * exponent := by
  have parts := Nat.div_add_mod exponent 2
  have doubled : (bit + bit) * (exponent / 2) = bit * (2 * (exponent / 2)) := by
    rw [← Nat.two_mul, Nat.mul_assoc, Nat.mul_left_comm]
  rw [doubled]
  split
  · next odd =>
    rw [odd] at parts
    rw [← parts, Nat.mul_add, Nat.mul_one, parts]
    omega
  · next even =>
    rw [show 2 * (exponent / 2) = exponent by omega]

/-- By induction on the digits, a power is within as many powers of two as its base is, times the
exponent. -/
theorem IsWithin.powerFrom (digits : Nat) {taken bit exponent : Nat} {product base : Datum}
    (isProduct : product.IsWithin taken) (isBase : base.IsWithin bit)
    (few : taken + bit * exponent < 1024) :
    (powerFrom digits product base exponent).IsWithin (taken + bit * exponent) := by
  induction digits generalizing taken bit exponent product base with
  | zero => exact isProduct.mono (Nat.le_add_right ..)
  | succ digits inductionHypothesis =>
    have exponents := halved_exponent taken bit exponent
    -- The bounds take part in the squaring: with every digit the exponent of the base doubles, and
    -- a digit that is one adds it to that of the product.
    have next : (if exponent % 2 = 1 then product.mul base else product).IsWithin
        (if exponent % 2 = 1 then taken + bit else taken) := by
      split
      · next odd =>
        rw [if_pos odd] at exponents
        exact isProduct.mul isBase (by omega)
      · exact isProduct
    unfold Datum.powerFrom
    dsimp only
    rw [← exponents] at few ⊢
    generalize (if exponent % 2 = 1 then product.mul base else product) = product' at next ⊢
    generalize (if exponent % 2 = 1 then taken + bit else taken) = taken' at next few ⊢
    split
    · exact next.mono (Nat.le_add_right ..)
    · next more =>
      have once : bit + bit ≤ (bit + bit) * (exponent / 2) :=
        Nat.le_mul_of_pos_right _ (Nat.pos_of_ne_zero more)
      exact inductionHypothesis next (isBase.mul isBase (by omega)) few

theorem Reaches.powerFrom (digits : Nat) {taken bit exponent : Nat} {product base : Datum}
    (isProduct : product.Reaches taken) (isBase : base.Reaches bit)
    (enough : exponent < 2 ^ digits) :
    (powerFrom digits product base exponent).Reaches (taken + bit * exponent) := by
  induction digits generalizing taken bit exponent product base with
  | zero =>
    have none : exponent = 0 := Nat.lt_one_iff.mp enough
    rw [none, Nat.mul_zero, Nat.add_zero]
    exact isProduct
  | succ digits inductionHypothesis =>
    have next : (if exponent % 2 = 1 then product.mul base else product).Reaches
        (if exponent % 2 = 1 then taken + bit else taken) := by
      split
      · exact isProduct.mul isBase
      · exact isProduct
    unfold Datum.powerFrom
    dsimp only
    rw [← halved_exponent]
    generalize (if exponent % 2 = 1 then product.mul base else product) = product' at next ⊢
    generalize (if exponent % 2 = 1 then taken + bit else taken) = taken' at next ⊢
    split
    · next last =>
      rw [last, Nat.mul_zero, Nat.add_zero]
      exact next
    · exact inductionHypothesis next (isBase.mul isBase) (by omega)

theorem IsWithin.power {bit exponent : Nat} {base : Datum} (isBase : base.IsWithin bit)
    (few : bit * exponent < 1024) : (base.power exponent).IsWithin (bit * exponent) := by
  rw [← Nat.zero_add (bit * exponent)] at few ⊢
  exact isWithin_one.powerFrom (exponent.log2 + 1) isBase few

/-- A power reaches as many powers of two as its base does, times the exponent. -/
theorem Reaches.power {bit : Nat} {base : Datum} (isBase : base.Reaches bit) (exponent : Nat) :
    (base.power exponent).Reaches (bit * exponent) := by
  have bounded := reaches_one.powerFrom (exponent.log2 + 1) isBase Nat.lt_log2_self
  rwa [Nat.zero_add] at bounded

/-! ### Powers of two -/

/-- Two. -/
def two : Datum := .finite false (oneUnits * 2 ^ 1)

theorem isWithin_two : two.IsWithin 1 := ⟨_, Nat.le_refl _, rfl⟩

theorem reaches_two : two.Reaches 1 :=
  .finite (Nat.le_refl _) (lt_limitUnits_of_le (by decide) (Nat.le_refl _))

/-- Below the exponent 1024 a power of two is exact. -/
theorem two_power {exponent : Nat} (few : exponent < 1024) :
    two.power exponent = .finite false (oneUnits * 2 ^ exponent) := by
  have isWithin : (two.power exponent).IsWithin (1 * exponent) :=
    isWithin_two.power (by rwa [Nat.one_mul])
  have reaches := reaches_two.power exponent
  rw [Nat.one_mul] at isWithin reaches
  exact isWithin.eq_of_reaches reaches

/-- From the exponent 1024 on a power of two is infinite. -/
theorem two_power_of_le {exponent : Nat} (many : 1024 ≤ exponent) :
    two.power exponent = .infinite false :=
  (reaches_two.power exponent).eq_infinite (by rwa [Nat.one_mul])

end Datum

end SecretRenewal.Binary64
