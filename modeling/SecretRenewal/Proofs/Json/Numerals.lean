/-
This file proves that a written number is read as the number it stands for. The reader takes the
digits up as long as 64 bits hold them, then the digits after the point, then the exponent, and what
it keeps between these parts is what the value of the number is made of. A number ends where no
digit, point or letter of an exponent follows, so this is asked of the bytes after it.
-/
import SecretRenewal.Proofs.Json.Readers
import Mathlib.Data.List.TakeDrop

namespace SecretRenewal.Json

/-- Bytes with which a number does not go on. -/
def Ends (rest : List UInt8) : Prop :=
  ∀ byte ∈ rest.head?, isDigit byte = false ∧ byte ≠ byteOf '.' ∧ byte ≠ byteOf 'e' ∧
    byte ≠ byteOf 'E'

section

variable {rest : List UInt8}

theorem Ends.notDigit (ends : Ends rest) : ∀ byte ∈ rest.head?, isDigit byte = false :=
  fun byte first => (ends byte first).1

theorem Ends.notPoint (ends : Ends rest) : rest.head? ≠ some (byteOf '.') :=
  fun first => (ends _ first).2.1 rfl

theorem Ends.notLetter (ends : Ends rest) :
    ¬(rest.head? = some (byteOf 'e') ∨ rest.head? = some (byteOf 'E')) := by
  rintro (first | first)
  · exact (ends _ first).2.2.1 rfl
  · exact (ends _ first).2.2.2 rfl

end

/-! ### Digits -/

theorem toNat_digitByte (digit : Digit) : (digitByte digit).toNat = 48 + digit.val := by
  have small : digit.val < 10 := digit.isLt
  exact UInt8.toNat_ofNat_of_lt' (show 48 + digit.val < 256 by omega)

theorem isDigit_digitByte (digit : Digit) : isDigit (digitByte digit) = true := by
  have small : digit.val < 10 := digit.isLt
  rw [isDigit_iff, toNat_digitByte]
  omega

theorem digitValue_digitByte (digit : Digit) : digitValue (digitByte digit) = digit.val := by
  rw [digitValue, toNat_digitByte]
  omega

theorem digitByte_ne {digit : Digit} {byte : UInt8} (notDigit : isDigit byte = false) :
    digitByte digit ≠ byte := by
  rintro rfl
  rw [isDigit_digitByte] at notDigit
  cases notDigit

theorem eq_zero_of_digitByte {digit : Digit} (isZero : digitByte digit = byteOf '0') :
    digit = 0 := by
  have value := congrArg UInt8.toNat isZero
  rw [toNat_digitByte] at value
  have zero : 48 + digit.val = 48 := value
  exact Fin.ext (by omega)

theorem span_map_digitByte (digits : List Digit) {rest : List UInt8}
    (ends : ∀ byte ∈ rest.head?, isDigit byte = false) :
    (digits.map digitByte ++ rest).span isDigit = (digits.map digitByte, rest) := by
  have noneAfter : rest.takeWhile isDigit = [] ∧ rest.dropWhile isDigit = rest := by
    cases rest with
    | nil => exact ⟨rfl, rfl⟩
    | cons byte rest =>
      have notDigit : ¬isDigit byte = true := by rw [ends byte rfl]; exact nofun
      exact ⟨List.takeWhile_cons_of_neg notDigit, List.dropWhile_cons_of_neg notDigit⟩
  have areDigits : ∀ byte ∈ digits.map digitByte, isDigit byte = true := by
    intro byte member
    obtain ⟨digit, -, rfl⟩ := List.mem_map.mp member
    exact isDigit_digitByte digit
  rw [List.span_eq_takeWhile_dropWhile, List.takeWhile_append_of_pos areDigits,
    List.dropWhile_append_of_pos areDigits, noneAfter.1, noneAfter.2, List.append_nil]

namespace Reader

/-- Digits are taken off up to the first byte that is none. -/
theorem digits_map (written : List Digit) {rest : List UInt8}
    (ends : ∀ byte ∈ rest.head?, isDigit byte = false) :
    digits (written.map digitByte ++ rest) = .ok (written.map digitByte, rest) := by
  unfold digits
  refine (bind_of_ok rfl _).trans ?_
  dsimp only
  rw [span_map_digitByte written ends]
  rfl

theorem accumulate_map (number : Nat) (written : List Digit) :
    accumulate number (written.map digitByte) = Numeral.takeUp number written := by
  induction written generalizing number with
  | nil => rfl
  | cons digit written inductionHypothesis =>
    rw [List.map_cons, accumulate, Numeral.takeUp, digitValue_digitByte, inductionHypothesis]

theorem foldl_digitByte (value : Nat) (written : List Digit) :
    (written.map digitByte).foldl (fun value digit => value * 10 + (digitValue digit : Int)) value =
      (written.foldl (fun value digit => value * 10 + digit.val) value : Nat) := by
  induction written generalizing value with
  | nil => rfl
  | cons digit written inductionHypothesis =>
    rw [List.map_cons, List.foldl_cons, List.foldl_cons, ← inductionHypothesis,
      digitValue_digitByte]
    push_cast
    rfl

end Reader

namespace Numeral

/-- Digits that are taken up to the last have been taken up to the number they write. -/
theorem takeUp_fst {number : Nat} {digits : List Digit}
    (all : (takeUp number digits).2 = digits.length) :
    (takeUp number digits).1 = digits.foldl (fun value digit => value * 10 + digit.val) number := by
  induction digits generalizing number with
  | nil => rfl
  | cons digit digits inductionHypothesis =>
    unfold takeUp at all ⊢
    split at all
    · rename_i fits
      rw [if_pos fits]
      exact inductionHypothesis (Nat.succ.inj all)
    · cases all

theorem takeUp_snd_le (number : Nat) (digits : List Digit) :
    (takeUp number digits).2 ≤ digits.length := by
  induction digits generalizing number with
  | nil => exact Nat.le_refl _
  | cons digit digits inductionHypothesis =>
    unfold takeUp
    split
    · exact Nat.succ_le_succ (inductionHypothesis _)
    · exact Nat.zero_le _

theorem le_foldl (number : Nat) (digits : List Digit) :
    number ≤ digits.foldl (fun value digit => value * 10 + digit.val) number := by
  induction digits generalizing number with
  | nil => exact Nat.le_refl _
  | cons digit digits inductionHypothesis =>
    have further := inductionHypothesis (number * 10 + digit.val)
    rw [List.foldl_cons]
    omega

/-- All digits are taken up just where 64 bits hold the number they write. -/
theorem takeUp_snd_iff {number : Nat} (small : number < Nat.pow 2 64) (digits : List Digit) :
    (takeUp number digits).2 = digits.length ↔
      digits.foldl (fun value digit => value * 10 + digit.val) number < Nat.pow 2 64 := by
  induction digits generalizing number with
  | nil => exact iff_of_true rfl small
  | cons digit digits inductionHypothesis =>
    unfold takeUp
    rw [List.foldl_cons]
    split
    · rename_i fits
      exact Nat.succ_inj.trans (inductionHypothesis fits)
    · rename_i beyond
      have further := le_foldl (number * 10 + digit.val) digits
      exact iff_of_false nofun (by omega)

theorem takeUp_whole_iff (numeral : Numeral) :
    numeral.whole.length - (takeUp 0 numeral.whole).2 = 0 ↔
      digitsValue numeral.whole < Nat.pow 2 64 := by
  have atMost := takeUp_snd_le 0 numeral.whole
  rw [digitsValue, ← takeUp_snd_iff (by decide)]
  omega

end Numeral

namespace Reader

/-! ### Powers of ten -/

theorem scale_eq (pieces : Nat) (magnitude : Binary64.Datum) (exponent : Int) :
    scale pieces magnitude exponent = offer (Numeral.scaled? pieces magnitude exponent) := by
  induction pieces generalizing magnitude exponent with
  | zero => rfl
  | succ pieces inductionHypothesis =>
    unfold scale Numeral.scaled?
    by_cases within : exponent.natAbs ≤ 308
    · rw [if_pos within, if_pos within]
      by_cases upward : 0 ≤ exponent
      · simp only [if_pos upward]
        cases magnitude.mul (.ofNat (Nat.pow 10 exponent.natAbs)) <;> rfl
      · simp only [if_neg upward]
        rfl
    · rw [if_neg within, if_neg within]
      by_cases zero : magnitude.sameNumber .zero = true
      · rw [if_pos zero, if_pos zero]
        rfl
      · rw [if_neg zero, if_neg zero]
        by_cases upward : 0 ≤ exponent
        · rw [if_pos upward, if_pos upward]
          rfl
        · rw [if_neg upward, if_neg upward]
          exact inductionHypothesis _ _

theorem fromParts_eq (negative : Bool) (significand : Nat) (exponent : Int) :
    fromParts negative significand exponent =
      offer ((Numeral.scaled? 4 (.ofNat significand) exponent).map (signed negative)) := by
  unfold fromParts
  rw [scale_eq]
  cases Numeral.scaled? 4 (.ofNat significand) exponent <;> rfl

/-! ### After the letter of the exponent -/

section

variable {written : List Digit} {rest : List UInt8}

theorem isEmpty_map (some : written ≠ []) : (written.map digitByte).isEmpty = false := by
  cases written with
  | nil => exact absurd rfl some
  | cons _ _ => rfl

end

/-- The rest of a number after the sign of the exponent. -/
def afterSign (negative : Bool) (significand : Nat) (shift : Int) (downward : Bool) :
    Reader Number := do
  match ← peek? with
  | none => throw .endOfText
  | some _ =>
    let taken ← digits
    if taken.isEmpty then refuse
    else
      let value : Int := taken.foldl (fun value digit => value * 10 + (digitValue digit : Int)) 0
      if exponentLimit < value then
        if significand ≠ 0 ∧ downward = false then refuse
        else return signed negative .zero
      else
        let total := if downward then shift - value else shift + value
        fromParts negative significand (max (-exponentLimit - 1) (min exponentLimit total))

section

variable {written : List Digit} {rest : List UInt8}

theorem afterSign_of_digits {negative downward : Bool} {significand : Nat} {shift : Int}
    (some : written ≠ [])
    (ends : ∀ byte ∈ rest.head?, isDigit byte = false) :
    afterSign negative significand shift downward (written.map digitByte ++ rest) =
      offer ((Numeral.withExponent? significand shift (Option.some (downward, written))).map
        (signed negative)) rest := by
  obtain ⟨digit, others, rfl⟩ := List.exists_cons_of_ne_nil some
  refine (bind_of_ok (peek?_eq _) _).trans ?_
  refine (bind_of_ok (digits_map _ ends) _).trans ?_
  rw [isEmpty_map some, if_neg nofun]
  dsimp only
  rw [Numeral.withExponent?, show ((0 : Int)) = ((0 : Nat) : Int) from rfl, foldl_digitByte]
  show (if exponentLimit < (digitsValue (digit :: others) : Int) then _ else _ : Reader Number)
    rest = _
  by_cases beyond : exponentLimit < (digitsValue (digit :: others) : Int)
  · rw [if_pos beyond, if_pos beyond]
    by_cases none : significand ≠ 0 ∧ downward = false
    · rw [if_pos none, if_pos none]
      rfl
    · rw [if_neg none, if_neg none]
      rfl
  · rw [if_neg beyond, if_neg beyond, fromParts_eq]
    rfl

theorem exponent_of_writes {exponent : Option (Bool × List Digit)} {bytes : List UInt8}
    (written : Numeral.WritesExponent exponent bytes)
    (some : ∀ written ∈ exponent, written.2 ≠ [])
    (ends : ∀ byte ∈ rest.head?, isDigit byte = false) (negative : Bool) (significand : Nat)
    (shift : Int) :
    exponent = none ∧ bytes = [] ∨ ∃ letter inside, bytes = letter :: inside ∧
      (letter = byteOf 'e' ∨ letter = byteOf 'E') ∧
      Reader.exponent negative significand shift (inside ++ rest) =
        offer ((Numeral.withExponent? significand shift exponent).map (signed negative)) rest := by
  cases written with
  | none => exact .inl ⟨rfl, rfl⟩
  | @upward letter sign digits isLetter isSign =>
    refine .inr ⟨_, _, rfl, isLetter.imp (congrArg byteOf) (congrArg byteOf), ?_⟩
    rcases isSign with rfl | rfl
    · obtain ⟨digit, others, rfl⟩ := List.exists_cons_of_ne_nil (some _ rfl)
      refine Eq.trans ?_ (afterSign_of_digits (some _ rfl) ends)
      refine (bind_of_ok (peek?_eq _) _).trans ?_
      show (if digitByte digit = byteOf '+' then _ else
        if digitByte digit = byteOf '-' then _ else _ : Reader Number) _ = _
      rw [if_neg (digitByte_ne rfl), if_neg (digitByte_ne rfl)]
      rfl
    · exact afterSign_of_digits (some _ rfl) ends
  | downward isLetter =>
    refine .inr ⟨_, _, rfl, isLetter.imp (congrArg byteOf) (congrArg byteOf), ?_⟩
    exact afterSign_of_digits (some _ rfl) ends

end

/-! ### After the point -/

section

variable {negative : Bool} {significand : Nat} {shift : Int} {written : List Digit}
  {exponent : Option (Bool × List Digit)} {bytes rest : List UInt8}

theorem exponentLetter {letter : Char} (isLetter : letter = 'e' ∨ letter = 'E') :
    isDigit (byteOf letter) = false ∧ byteOf letter ≠ byteOf '.' := by
  rcases isLetter with rfl | rfl <;> exact ⟨rfl, by decide⟩

/-- No digit stands in front of an exponent, or where a number ends. -/
theorem notDigit_of_writesExponent (writtenExponent : Numeral.WritesExponent exponent bytes)
    (ends : Ends rest) : ∀ byte ∈ (bytes ++ rest).head?, isDigit byte = false := by
  cases writtenExponent with
  | none => exact ends.notDigit
  | upward isLetter =>
    rintro _ ⟨⟩
    exact (exponentLetter isLetter).1
  | downward isLetter =>
    rintro _ ⟨⟩
    exact (exponentLetter isLetter).1

theorem notPoint_of_writesExponent (writtenExponent : Numeral.WritesExponent exponent bytes)
    (ends : Ends rest) : (bytes ++ rest).head? ≠ Option.some (byteOf '.') := by
  cases writtenExponent with
  | none => exact ends.notPoint
  | upward isLetter => exact fun first => (exponentLetter isLetter).2 (Option.some.inj first)
  | downward isLetter => exact fun first => (exponentLetter isLetter).2 (Option.some.inj first)

theorem fraction_of_digits (some : written ≠ [])
    (someExponent : ∀ written ∈ exponent, written.2 ≠ [])
    (writtenExponent : Numeral.WritesExponent exponent bytes) (ends : Ends rest) :
    fraction negative significand shift (written.map digitByte ++ (bytes ++ rest)) =
      offer ((Numeral.withExponent? (Numeral.takeUp significand written).1
        (shift - (Numeral.takeUp significand written).2) exponent).map (signed negative)) rest := by
  have notDigit := notDigit_of_writesExponent writtenExponent ends
  refine (bind_of_ok (digits_map written notDigit) _).trans ?_
  rw [isEmpty_map some, if_neg nofun, accumulate_map]
  refine (bind_of_ok (peek?_eq _) _).trans ?_
  rcases exponent_of_writes writtenExponent someExponent ends.notDigit negative
      (Numeral.takeUp significand written).1 (shift - (Numeral.takeUp significand written).2) with
    ⟨rfl, rfl⟩ | ⟨letter, inside, rfl, isLetter, read⟩
  · rw [List.nil_append, if_neg ends.notLetter, fromParts_eq]
    rfl
  · have goesOn : (letter :: inside ++ rest).head? = Option.some (byteOf 'e') ∨
        (letter :: inside ++ rest).head? = Option.some (byteOf 'E') :=
      isLetter.imp (congrArg Option.some) (congrArg Option.some)
    rw [if_pos goesOn]
    exact (bind_of_ok (drop_eq _) _).trans read

end

/-! ### Whole numbers, and the parts together -/

/-- A number without point and exponent that 64 bits hold. -/
theorem whole_eq {numeral : Numeral} (noFraction : numeral.fraction = [])
    (noExponent : numeral.exponent = none) (fits : digitsValue numeral.whole < Nat.pow 2 64) :
    numeral.number? = some (whole numeral.negative (Numeral.takeUp 0 numeral.whole).1) := by
  have all := (numeral.takeUp_whole_iff).mpr fits
  have atMost := Numeral.takeUp_snd_le 0 numeral.whole
  have value : (Numeral.takeUp 0 numeral.whole).1 = digitsValue numeral.whole :=
    Numeral.takeUp_fst (by omega)
  have magnitude : numeral.magnitude? = some (.ofNat (digitsValue numeral.whole)) := by
    unfold Numeral.magnitude?
    simp only [noFraction, noExponent, all, value, and_self, if_true]
  unfold Numeral.number? Numeral.integer? whole
  rw [if_pos ⟨noFraction, noExponent⟩, magnitude, value]
  cases numeral.negative with
  | false =>
    simp only [if_pos fits, if_true]
  | true =>
    by_cases within : 0 < digitsValue numeral.whole ∧ digitsValue numeral.whole ≤ Nat.pow 2 63
    · simp only [if_pos within, reduceCtorEq, if_false]
    · simp only [if_neg within, reduceCtorEq, if_false]
      rfl

theorem number?_of_scaled {numeral : Numeral}
    (notWhole : ¬(numeral.fraction = [] ∧ numeral.exponent = none ∧
      digitsValue numeral.whole < Nat.pow 2 64)) :
    numeral.number? = ((Numeral.withExponent?
        (Numeral.takeUp (Numeral.takeUp 0 numeral.whole).1 numeral.fraction).1
        ((numeral.whole.length - (Numeral.takeUp 0 numeral.whole).2 : Nat) -
          (Numeral.takeUp (Numeral.takeUp 0 numeral.whole).1 numeral.fraction).2)
        numeral.exponent).map (signed numeral.negative)) := by
  have noInteger : numeral.integer? = none := by
    unfold Numeral.integer?
    split
    · rename_i integral
      have beyond : ¬digitsValue numeral.whole < Nat.pow 2 64 := fun fits =>
        notWhole ⟨integral.1, integral.2, fits⟩
      split
      · rw [if_neg beyond]
      · have less : Nat.pow 2 63 < Nat.pow 2 64 := by decide
        rw [if_neg (by omega)]
    · rfl
  have notAll : ¬(numeral.fraction = [] ∧ numeral.exponent = none ∧
      numeral.whole.length - (Numeral.takeUp 0 numeral.whole).2 = 0) := by
    rw [Numeral.takeUp_whole_iff]
    exact notWhole
  unfold Numeral.number? Numeral.magnitude?
  rw [noInteger]
  dsimp only
  rw [if_neg notAll]

theorem notDigit_after_whole {numeral : Numeral} {exponent rest : List UInt8}
    (written : Numeral.WritesExponent numeral.exponent exponent) (ends : Ends rest) :
    ∀ byte ∈ (numeral.fractionBytes ++ (exponent ++ rest)).head?, isDigit byte = false := by
  unfold Numeral.fractionBytes
  split
  · rw [List.nil_append]
    exact notDigit_of_writesExponent written ends
  · rintro _ ⟨⟩
    rfl

/-- The digits in front of the point are as they have to be. -/
theorem not_refused {numeral : Numeral} {digit : Digit} {others : List Digit}
    (isWhole : numeral.whole = digit :: others) : ¬((numeral.whole.map digitByte).isEmpty = true ∨
      digitByte digit = byteOf '0' ∧ 1 < (numeral.whole.map digitByte).length) := by
  rw [isEmpty_map numeral.whole_ne_nil]
  rintro (empty | ⟨zero, several⟩)
  · cases empty
  · have single := numeral.whole_of_zero (by rw [isWhole, eq_zero_of_digitByte zero]; rfl)
    rw [single] at several
    exact absurd several (by decide)

/-- A number is read from its digits on. -/
theorem number_of_digits {numeral : Numeral} {exponent rest : List UInt8}
    (written : Numeral.WritesExponent numeral.exponent exponent) (ends : Ends rest) :
    number numeral.negative
      (numeral.whole.map digitByte ++ (numeral.fractionBytes ++ (exponent ++ rest))) =
        offer numeral.number? rest := by
  obtain ⟨digit, others, isWhole⟩ := List.exists_cons_of_ne_nil numeral.whole_ne_nil
  have first : (numeral.whole.map digitByte ++
      (numeral.fractionBytes ++ (exponent ++ rest))).head? = some (digitByte digit) := by
    rw [isWhole]
    rfl
  unfold number
  refine (bind_of_ok (peek?_eq _) _).trans ?_
  rw [first]
  refine (bind_of_ok (digits_map _ (notDigit_after_whole written ends)) _).trans ?_
  rw [if_neg (not_refused isWhole), accumulate_map, List.length_map]
  refine (bind_of_ok (peek?_eq _) _).trans ?_
  by_cases noFraction : numeral.fraction = []
  · have noPoint : numeral.fractionBytes = [] := if_pos noFraction
    rw [noPoint, List.nil_append]
    rcases exponent_of_writes written numeral.exponent_ne_nil ends.notDigit numeral.negative
        (Numeral.takeUp 0 numeral.whole).1
        (numeral.whole.length - (Numeral.takeUp 0 numeral.whole).2 : Nat) with
      ⟨noExponent, rfl⟩ | ⟨letter, inside, rfl, isLetter, read⟩
    · rw [List.nil_append, if_neg ends.notPoint, if_neg ends.notLetter]
      by_cases fits : digitsValue numeral.whole < Nat.pow 2 64
      · rw [if_pos (numeral.takeUp_whole_iff.mpr fits), whole_eq noFraction noExponent fits]
        rfl
      · rw [if_neg (mt numeral.takeUp_whole_iff.mp fits), fromParts_eq,
          number?_of_scaled fun whole => fits whole.2.2, noFraction, noExponent]
        simp only [Numeral.takeUp, Int.natCast_zero, Int.sub_zero]
        rfl
    · have goesOn : (letter :: inside ++ rest).head? = some (byteOf 'e') ∨
          (letter :: inside ++ rest).head? = some (byteOf 'E') :=
        isLetter.imp (congrArg some) (congrArg some)
      have hasExponent : numeral.exponent ≠ none := by
        intro noExponent
        rw [noExponent] at written
        cases written
      rw [if_neg (notPoint_of_writesExponent written ends), if_pos goesOn]
      refine (bind_of_ok (drop_eq _) _).trans (read.trans ?_)
      rw [number?_of_scaled fun whole => hasExponent whole.2.1, noFraction]
      simp only [Numeral.takeUp, Int.natCast_zero, Int.sub_zero]
  · rw [number?_of_scaled fun whole => noFraction whole.1]
    have point : numeral.fractionBytes = byteOf '.' :: numeral.fraction.map digitByte :=
      if_neg noFraction
    rw [point, List.cons_append, if_pos (by rfl)]
    refine (bind_of_ok (drop_eq _) _).trans ?_
    exact fraction_of_digits noFraction numeral.exponent_ne_nil written ends

/-! ### From the sign on -/

/-- A number begins with its sign or with a digit. -/
theorem body_cons (numeral : Numeral) (bytes : List UInt8) : ∃ first inside,
    numeral.whole.map digitByte ++ bytes = first :: inside ∧ isDigit first = true := by
  obtain ⟨digit, others, isWhole⟩ := List.exists_cons_of_ne_nil numeral.whole_ne_nil
  exact ⟨digitByte digit, others.map digitByte ++ bytes, by rw [isWhole]; rfl,
    isDigit_digitByte digit⟩

/-- A written number is read as what it stands for, if it stands for one. -/
theorem signedNumber_of_writes {numeral : Numeral} {bytes rest : List UInt8}
    (written : numeral.Writes bytes) (ends : Ends rest) : ∃ first inside, bytes = first :: inside ∧
      (decide (first = byteOf '-') || isDigit first) = true ∧
      signedNumber first (bytes ++ rest) = offer numeral.number? rest := by
  obtain ⟨writtenExponent⟩ := written
  have read := number_of_digits writtenExponent ends
  cases isNegative : numeral.negative with
  | true =>
    rw [isNegative] at read
    refine ⟨_, _, rfl, rfl, ?_⟩
    simp only [List.append_assoc]
    exact read
  | false =>
    rw [isNegative] at read
    obtain ⟨first, inside, cons, digit⟩ := body_cons numeral (numeral.fractionBytes ++ _)
    refine ⟨first, inside, cons, by rw [digit, Bool.or_true], ?_⟩
    have noSign : first ≠ byteOf '-' := by
      rintro rfl
      cases digit
    unfold signedNumber
    rw [if_neg noSign]
    simp only [List.append_assoc]
    exact read

/-! ### Passing over -/

/-- Skips the exponent of a number, if there is one. -/
def skipExponent : Reader Unit := do
  let next ← peek?
  if next = some (byteOf 'e') ∨ next = some (byteOf 'E') then
    drop
    let sign ← peek?
    if sign = some (byteOf '+') ∨ sign = some (byteOf '-') then drop
    if (← digits).isEmpty then refuse

theorem skipDigits {written : List Digit} {rest : List UInt8} (some : written ≠ [])
    (ends : ∀ byte ∈ rest.head?, isDigit byte = false) (next : Reader Unit) :
    (digits >>= fun taken => if taken.isEmpty = true then refuse else next)
      (written.map digitByte ++ rest) = next rest := by
  refine (bind_of_ok (digits_map _ ends) _).trans ?_
  rw [isEmpty_map some, if_neg nofun]

theorem skipExponent_of_writes {exponent : Option (Bool × List Digit)} {bytes rest : List UInt8}
    (written : Numeral.WritesExponent exponent bytes)
    (someDigits : ∀ written ∈ exponent, written.2 ≠ []) (ends : Ends rest) :
    skipExponent (bytes ++ rest) = .ok ((), rest) := by
  refine (bind_of_ok (peek?_eq _) _).trans ?_
  have isE {letter : Char} {inside : List UInt8} (isLetter : letter = 'e' ∨ letter = 'E') :
      (byteOf letter :: inside ++ rest).head? = some (byteOf 'e') ∨
        (byteOf letter :: inside ++ rest).head? = some (byteOf 'E') :=
    isLetter.imp (congrArg (some ∘ byteOf)) (congrArg (some ∘ byteOf))
  cases written with
  | none =>
    rw [List.nil_append, if_neg ends.notLetter]
    rfl
  | @upward letter sign written isLetter isSign =>
    have passed := skipDigits (someDigits _ rfl) ends.notDigit (return ())
    rw [if_pos (isE isLetter)]
    rcases isSign with rfl | rfl
    · obtain ⟨digit, others, rfl⟩ := List.exists_cons_of_ne_nil (someDigits _ rfl)
      refine Eq.trans ?_ passed
      show (if some (digitByte digit) = some (byteOf '+') ∨
        some (digitByte digit) = some (byteOf '-') then _ else _ : Reader Unit) _ = _
      rw [if_neg (by
        rintro (sign | sign)
        · exact digitByte_ne rfl (Option.some.inj sign)
        · exact digitByte_ne rfl (Option.some.inj sign))]
      rfl
    · exact passed
  | downward isLetter =>
    rw [if_pos (isE isLetter)]
    exact skipDigits (someDigits _ rfl) ends.notDigit (return ())

/-- A written number is passed over from its digits on. -/
theorem skipNumber_of_digits {numeral : Numeral} {exponent rest : List UInt8}
    (written : Numeral.WritesExponent numeral.exponent exponent) (ends : Ends rest) :
    skipNumber (numeral.whole.map digitByte ++ (numeral.fractionBytes ++ (exponent ++ rest))) =
      .ok ((), rest) := by
  obtain ⟨digit, others, isWhole⟩ := List.exists_cons_of_ne_nil numeral.whole_ne_nil
  have skipped := skipExponent_of_writes written numeral.exponent_ne_nil ends
  have first : (numeral.whole.map digitByte ++
      (numeral.fractionBytes ++ (exponent ++ rest))).head? = some (digitByte digit) := by
    rw [isWhole]
    rfl
  unfold skipNumber
  refine (bind_of_ok (peek?_eq _) _).trans ?_
  refine (bind_of_ok (digits_map _ (notDigit_after_whole written ends)) _).trans ?_
  rw [first, if_neg fun wrong =>
    not_refused isWhole (wrong.imp_right (And.imp_left Option.some.inj))]
  refine (bind_of_ok (peek?_eq _) _).trans ?_
  refine Eq.trans ?_ skipped
  unfold Numeral.fractionBytes
  split
  · rw [List.nil_append, if_neg (notPoint_of_writesExponent written ends)]
    rfl
  · rename_i someFraction
    exact skipDigits someFraction (notDigit_of_writesExponent written ends) skipExponent

end Reader

end SecretRenewal.Json
