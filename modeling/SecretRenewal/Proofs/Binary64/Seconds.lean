/-
This file follows a span through a product and back. The seconds of a span times a factor are
rounded, and so are the nanoseconds that they come to. Times a larger factor a span comes back no
shorter, unless it is too long to come back at all; and times two or more it comes back no shorter
than it was.
-/
import SecretRenewal.Proofs.Binary64.Errors

namespace SecretRenewal

open Binary64

-- Comparing terms in which these occur must not compute them.
attribute [local irreducible] oneUnits limitUnits

namespace Duration

/-! ### Spans of a number of seconds -/

theorem ofNanos?_eq_some_iff {nanos : Nat} {span : Duration} :
    ofNanos? nanos = some span ↔ nanos = span.nanos := by
  unfold ofNanos?
  constructor
  · intro found
    split at found
    · cases found
      rfl
    · cases found
  · rintro rfl
    exact dif_pos span.nanos_lt

theorem ofSeconds?_finite (units : Nat) :
    ofSeconds? (.finite false units) =
      if secondsLimit * oneUnits ≤ units then none
      else ofNanos? (roundHalfEven (units * nanosPerSecond) oneUnits) := by
  unfold ofSeconds?
  exact if_neg Bool.false_ne_true

/-- A rounded number of seconds is a span if its seconds fit in 64 bits and still do in whole
nanoseconds. -/
theorem ofSeconds?_nearest_eq_some_iff {numerator denominator : Nat} {span : Duration} :
    ofSeconds? (nearest false numerator denominator) = some span ↔
      roundUnits numerator denominator < secondsLimit * oneUnits ∧
        roundHalfEven (roundUnits numerator denominator * nanosPerSecond) oneUnits =
          span.nanos := by
  by_cases fits : roundUnits numerator denominator < secondsLimit * oneUnits
  · have le : roundUnits numerator denominator ≤ oneUnits * 2 ^ 64 := by
      rw [Nat.mul_comm oneUnits]
      exact Nat.le_of_lt fits
    rw [Datum.nearest_of_lt (lt_limitUnits_of_le (by decide) le), ofSeconds?_finite,
      if_neg (Nat.not_le_of_lt fits), ofNanos?_eq_some_iff, and_iff_right fits]
  · refine ⟨fun found => ?_, fun ⟨less, _⟩ => absurd less fits⟩
    unfold nearest at found
    dsimp only at found
    split at found
    · rw [ofSeconds?_finite, if_pos (Nat.le_of_not_lt fits)] at found
      cases found
    · cases found

/-- A smaller number of seconds is a shorter span. -/
theorem exists_le_of_ofSeconds? {first second denominator : Nat} {longer : Duration}
    (positive : 0 < denominator) (le : first ≤ second)
    (isLonger : ofSeconds? (nearest false second denominator) = some longer) :
    ∃ shorter, ofSeconds? (nearest false first denominator) = some shorter ∧ shorter ≤ longer := by
  obtain ⟨fits, isNanos⟩ := ofSeconds?_nearest_eq_some_iff.mp isLonger
  have units : roundUnits first denominator ≤ roundUnits second denominator :=
    roundUnits_mono positive le
  have nanos := roundHalfEven_mono oneUnits_pos (Nat.mul_le_mul_right nanosPerSecond units)
  rw [isNanos] at nanos
  refine ⟨⟨_, Nat.lt_of_le_of_lt nanos longer.nanos_lt⟩, ?_, nanos⟩
  exact ofSeconds?_nearest_eq_some_iff.mpr ⟨Nat.lt_of_le_of_lt units fits, rfl⟩

/-! ### Products -/

variable (span : Duration)

/-- The seconds of a span times a factor, in units. -/
def scaledUnits (factor : Nat) : Nat := roundUnits (span.secondsUnits * factor) oneUnits

theorem scaledBy?_finite (factor : Nat) : span.scaledBy? (.finite false factor) =
    ofSeconds? (nearest false (span.secondsUnits * factor) oneUnits) := by
  unfold scaledBy?
  rw [toSeconds_eq, Datum.mul_finite]

/-- An infinite factor gives no span. -/
theorem scaledBy?_infinite : span.scaledBy? (.infinite false) = none := by
  unfold scaledBy?
  rw [toSeconds_eq]
  show ofSeconds? (if span.secondsUnits = 0 then .nan else .infinite _) = none
  split <;> rfl

variable {span} {scaled : Duration} {factor : Nat}

/-- Times a smaller factor a span is no longer. -/
theorem exists_le_of_scaledBy? {smaller larger : Nat} (le : smaller ≤ larger)
    (isScaled : span.scaledBy? (.finite false larger) = some scaled) :
    ∃ shorter, span.scaledBy? (.finite false smaller) = some shorter ∧ shorter ≤ scaled := by
  rw [scaledBy?_finite] at isScaled ⊢
  exact exists_le_of_ofSeconds? oneUnits_pos (Nat.mul_le_mul_left span.secondsUnits le) isScaled

theorem nanos_of_scaledBy? (isScaled : span.scaledBy? (.finite false factor) = some scaled) :
    roundHalfEven (span.scaledUnits factor * nanosPerSecond) oneUnits = scaled.nanos := by
  rw [scaledBy?_finite] at isScaled
  exact (ofSeconds?_nearest_eq_some_iff.mp isScaled).2

/-- The nanoseconds that a product comes back as are off by half of one at most. -/
theorem near_nanos (isScaled : span.scaledBy? (.finite false factor) = some scaled) :
    Near oneUnits (2 * (scaled.nanos * oneUnits))
      (2 * (span.scaledUnits factor * nanosPerSecond)) := by
  rw [← nanos_of_scaledBy? isScaled]
  exact near_roundHalfEven oneUnits_pos

/-- Times one the seconds are what they are. -/
theorem scaledUnits_one : span.scaledUnits oneUnits = span.secondsUnits :=
  roundUnits_roundUnits Nat.one_pos oneUnits_pos

/-- A product is off by one part in `2 ^ 53` at most. -/
theorem near_scaledUnits (large : oneUnits ≤ factor) : Near (span.secondsUnits * factor)
    (2 ^ 53 * (span.scaledUnits factor * oneUnits)) (2 ^ 53 * (span.secondsUnits * factor)) :=
  near_roundUnits_part oneUnits_pos fun some =>
    Nat.mul_le_mul (secondsUnits_large fun none => some (by rw [none, Nat.zero_mul])) large

/-- Rounding a product leaves as often the seconds as the factor is one, but for a part. -/
theorem scaledUnits_lower {count : Nat} (positive : 0 < count)
    (large : oneUnits * count ≤ factor) :
    2 ^ 53 * (span.secondsUnits * count) ≤
      2 ^ 53 * span.scaledUnits factor + span.secondsUnits * count := by
  have once := Nat.le_trans (Nat.le_mul_of_pos_right oneUnits positive) large
  have near := (@near_scaledUnits span factor once).ge
  have least := Nat.mul_le_mul_left span.secondsUnits large
  refine Nat.le_of_mul_le_mul_right ?_ oneUnits_pos
  rw [Nat.mul_comm oneUnits, ← Nat.mul_assoc] at least
  rw [Nat.add_mul, Nat.mul_assoc (2 ^ 53), Nat.mul_assoc (2 ^ 53)]
  generalize oneUnits = one at *
  omega

/-- Times two or more a span is no shorter than it was. -/
theorem le_of_scaledBy? (large : oneUnits * 2 ^ 1 ≤ factor)
    (isScaled : span.scaledBy? (.finite false factor) = some scaled) : span ≤ scaled := by
  have near := (@near_secondsUnits_part span).ge
  have lower := Nat.mul_le_mul_right nanosPerSecond
    (@scaledUnits_lower span factor _ (by decide) large)
  rw [Nat.add_mul, Nat.mul_assoc (2 ^ 53), Nat.mul_assoc (2 ^ 53),
    Nat.mul_right_comm span.secondsUnits, Nat.pow_one] at lower
  rw [le_def, ← nanos_of_scaledBy? isScaled]
  refine le_roundHalfEven oneUnits_pos ?_
  generalize oneUnits = one at *
  generalize nanosPerSecond = second at *
  omega

end Duration

end SecretRenewal
