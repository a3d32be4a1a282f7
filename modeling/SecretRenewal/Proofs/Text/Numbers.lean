/-
This file proves that the digits of a number write this number, and what is known of a number that
was read from digits. Numbers that are put together with a mark between them are read again one by
one.
-/
import SecretRenewal.Proofs.Url.Characters

namespace SecretRenewal

namespace Text

/-! ### Numbers in digits -/

theorem digitIn?_digitChar {base value : Nat} (isDigit : value < base) (small : base ≤ 16) :
    digitIn? base (Nat.digitChar value) = some value := by
  have all : ∀ value < 16, digitValue? (Nat.digitChar value) = some value := by decide
  rw [digitIn?, all value (by omega), Option.filter_some, if_pos (by simpa using isDigit)]

theorem numberIn?_append (base : Nat) (front back : List Char) :
    numberIn? base (front ++ back) = (numberIn? base front).bind fun value =>
      back.foldlM (fun value digit => (digitIn? base digit).map (value * base + ·)) value := by
  unfold numberIn?
  exact List.foldlM_append

/-- The digits of a number write this number. -/
theorem numberIn?_toDigits {base : Nat} (atLeast : 1 < base) (small : base ≤ 16) (value : Nat) :
    numberIn? base (Nat.toDigits base value) = some value := by
  induction value using Nat.strongRecOn with
  | ind value inductionHypothesis =>
    by_cases single : value < base
    · rw [Nat.toDigits_of_lt_base single]
      show ((digitIn? base (Nat.digitChar value)).map (0 * base + ·)).bind some = some value
      rw [digitIn?_digitChar single small]
      simp
    · have isLess : value / base < value := Nat.div_lt_self (by omega) atLeast
      have isDigit : value % base < base := Nat.mod_lt _ (by omega)
      rw [Nat.toDigits_of_base_le atLeast (by omega), numberIn?_append,
        inductionHypothesis _ isLess]
      show ((digitIn? base (Nat.digitChar (value % base))).map (value / base * base + ·)).bind some
        = some value
      rw [digitIn?_digitChar isDigit small, Option.map_some, Option.bind_some,
        Nat.mul_comm, Nat.div_add_mod]

/-- The digits of a number have no zero in front. -/
theorem eq_zero_of_toDigits {value : Nat} {rest : List Char}
    (digits : Nat.toDigits 10 value = '0' :: rest) : value = 0 := by
  induction value using Nat.strongRecOn generalizing rest with
  | ind value inductionHypothesis =>
    by_cases single : value < 10
    · have all : ∀ value < 10, Nat.digitChar value = '0' → value = 0 := by decide
      rw [Nat.toDigits_of_lt_base single] at digits
      exact all value single (List.cons.inj digits).1
    · rw [Nat.toDigits_of_base_le (by decide) (by omega)] at digits
      obtain ⟨first, others, front⟩ := List.exists_cons_of_ne_nil
        (Nat.toDigits_ne_nil : Nat.toDigits 10 (value / 10) ≠ [])
      rw [front] at digits
      rw [(List.cons.inj digits).1] at front
      have := inductionHypothesis (value / 10) (by omega) front
      omega

theorem exists_digit_of_mem {base value : Nat} (atLeast : 1 < base) {char : Char}
    (member : char ∈ Nat.toDigits base value) : ∃ digit < base, char = Nat.digitChar digit := by
  induction value using Nat.strongRecOn with
  | ind value inductionHypothesis =>
    by_cases single : value < base
    · rw [Nat.toDigits_of_lt_base single] at member
      exact ⟨value, single, List.mem_singleton.mp member⟩
    · rw [Nat.toDigits_of_base_le atLeast (by omega)] at member
      rcases List.mem_append.mp member with front | last
      · exact inductionHypothesis _ (Nat.div_lt_self (by omega) atLeast) front
      · exact ⟨value % base, Nat.mod_lt _ (by omega), List.mem_singleton.mp last⟩

theorem mem_intercalate {mark char : Char} {pieces : List (List Char)}
    (member : char ∈ [mark].intercalate pieces) :
    char ∈ [mark] ∨ ∃ piece ∈ pieces, char ∈ piece := by
  cases pieces with
  | nil => cases member
  | cons first rest =>
    rw [intercalate_eq_marked] at member
    rcases List.mem_append.mp member with inFirst | later
    · exact .inr ⟨first, List.mem_cons_self, inFirst⟩
    · obtain ⟨piece, isPiece, inside⟩ := List.mem_flatMap.mp later
      rcases List.mem_cons.mp inside with isMark | inside
      · exact .inl (List.mem_singleton.mpr isMark)
      · exact .inr ⟨piece, List.mem_cons_of_mem _ isPiece, inside⟩

/-- Readable pieces are all read. -/
theorem mapM_map_eq_some {value written : Type} {read : written → Option value}
    {write : value → written} {values : List value}
    (each : ∀ given ∈ values, read (write given) = some given) :
    (values.map write).mapM read = some values := by
  induction values with
  | nil => rfl
  | cons given values inductionHypothesis =>
    obtain ⟨first, others⟩ := List.forall_mem_cons.mp each
    rw [List.map_cons, List.mapM_cons, first, inductionHypothesis others]
    rfl

/-- So many digits write no greater number than they can. -/
theorem foldlM_digitIn?_lt {base : Nat} {digits : List Char} {before value : Nat}
    (isNumber : digits.foldlM (fun value digit => (digitIn? base digit).map (value * base + ·))
      before = some value) : value < (before + 1) * Nat.pow base digits.length := by
  induction digits generalizing before with
  | nil =>
    cases isNumber
    show value < (value + 1) * 1
    omega
  | cons digit digits inductionHypothesis =>
    rw [List.foldlM_cons] at isNumber
    obtain ⟨next, isNext, isNumber⟩ := Option.bind_eq_some_iff.mp isNumber
    obtain ⟨given, isDigit, rfl⟩ := Option.map_eq_some_iff.mp isNext
    have small := digitIn?_lt isDigit
    have bound : before * base + given + 1 ≤ (before + 1) * base := by
      rw [Nat.add_mul, Nat.one_mul]
      omega
    calc value < (before * base + given + 1) * Nat.pow base digits.length :=
          inductionHypothesis isNumber
      _ ≤ (before + 1) * base * Nat.pow base digits.length := Nat.mul_le_mul_right _ bound
      _ = (before + 1) * Nat.pow base (digits.length + 1) := by
          rw [Nat.mul_assoc, Nat.mul_comm base]
          rfl

theorem numberIn?_lt {base : Nat} {digits : List Char} {value : Nat}
    (isNumber : numberIn? base digits = some value) : value < Nat.pow base digits.length := by
  have bound := foldlM_digitIn?_lt isNumber
  rwa [Nat.zero_add, Nat.one_mul] at bound

theorem forall_mem_of_mapM {written value : Type} {read : written → Option value}
    {holds : value → Prop} (each : ∀ piece given, read piece = some given → holds given)
    {pieces : List written} {values : List value} (isRead : pieces.mapM read = some values) :
    ∀ given ∈ values, holds given := by
  induction pieces generalizing values with
  | nil =>
    cases isRead
    exact nofun
  | cons piece pieces inductionHypothesis =>
    rw [List.mapM_cons] at isRead
    obtain ⟨first, isFirst, isRead⟩ := Option.bind_eq_some_iff.mp isRead
    obtain ⟨others, areOthers, isRead⟩ := Option.bind_eq_some_iff.mp isRead
    cases isRead
    exact List.forall_mem_cons.mpr ⟨each piece first isFirst, inductionHypothesis areOthers⟩

end Text

end SecretRenewal
