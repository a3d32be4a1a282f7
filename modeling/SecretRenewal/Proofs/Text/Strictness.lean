/-
This file proves that bytes are read as a text only if they are the bytes of that text. A first byte
says how many bytes follow, and within the ranges that it leaves for them the bits that they carry
make up a character whose own bytes they are. So nothing that is no text is taken for one, and no
text is read from two different rows of bytes.
-/
import SecretRenewal.Proofs.Text.Utf8

namespace SecretRenewal.Text

/-! ### Bytes of a character -/

theorem toNat_ofNat {code : Nat} (valid : code < 0xd800 ∨ 0xdfff < code ∧ code < 0x110000) :
    (Char.ofNat code).val.toNat = code := by
  unfold Char.ofNat
  rw [dif_pos valid]
  rfl

theorem eq_ofNat {byte : UInt8} {value : Nat} (same : byte.toNat = value) :
    UInt8.ofNat value = byte := by
  rw [← same]
  exact UInt8.ofNat_toNat

section

variable {first second third fourth : UInt8}

theorem utf8EncodeChar_of_one (ascii : first.toNat < 0x80) :
    String.utf8EncodeChar (Char.ofNat first.toNat) = [first] := by
  unfold String.utf8EncodeChar
  simp only [@toNat_ofNat first.toNat (by omega)]
  rw [if_pos (by omega), eq_ofNat rfl]

theorem utf8EncodeChar_of_two (lower : 0xc2 ≤ first.toNat) (upper : first.toNat < 0xe0)
    (secondLower : 0x80 ≤ second.toNat) (secondUpper : second.toNat ≤ 0xbf) :
    String.utf8EncodeChar (Char.ofNat ((first.toNat - 0xc0) * 64 + (second.toNat - 0x80))) =
      [first, second] := by
  unfold String.utf8EncodeChar
  simp only [@toNat_ofNat ((first.toNat - 0xc0) * 64 + (second.toNat - 0x80)) (by omega)]
  rw [if_neg (by omega), if_pos (by omega), @eq_ofNat first _ (by omega),
    @eq_ofNat second _ (by omega)]

/-- A second byte in the range that the first of three leaves for it. -/
structure IsSecondOfThree (first second : UInt8) : Prop where
  lower : (if first = 0xe0 then 0xa0 else 0x80 : UInt8).toNat ≤ second.toNat
  upper : second.toNat ≤ (if first = 0xed then 0x9f else 0xbf : UInt8).toNat

/-- A second byte in the range that the first of four leaves for it. -/
structure IsSecondOfFour (first second : UInt8) : Prop where
  lower : (if first = 0xf0 then 0x90 else 0x80 : UInt8).toNat ≤ second.toNat
  upper : second.toNat ≤ (if first = 0xf4 then 0x8f else 0xbf : UInt8).toNat

theorem IsSecondOfThree.bounds (inRange : IsSecondOfThree first second) :
    0x80 ≤ second.toNat ∧ second.toNat ≤ 0xbf ∧
      (first.toNat = 0xe0 → 0xa0 ≤ second.toNat) ∧ (first.toNat = 0xed → second.toNat ≤ 0x9f) := by
  obtain ⟨lower, upper⟩ := inRange
  simp only [← UInt8.toNat_inj, apply_ite UInt8.toNat] at lower upper
  simp at lower upper
  split at lower <;> split at upper <;> omega

theorem IsSecondOfFour.bounds (inRange : IsSecondOfFour first second) :
    0x80 ≤ second.toNat ∧ second.toNat ≤ 0xbf ∧
      (first.toNat = 0xf0 → 0x90 ≤ second.toNat) ∧ (first.toNat = 0xf4 → second.toNat ≤ 0x8f) := by
  obtain ⟨lower, upper⟩ := inRange
  simp only [← UInt8.toNat_inj, apply_ite UInt8.toNat] at lower upper
  simp at lower upper
  split at lower <;> split at upper <;> omega

theorem utf8EncodeChar_of_three (lower : 0xe0 ≤ first.toNat) (upper : first.toNat < 0xf0)
    (inRange : IsSecondOfThree first second) (thirdLower : 0x80 ≤ third.toNat)
    (thirdUpper : third.toNat ≤ 0xbf) :
    String.utf8EncodeChar (Char.ofNat
      (((first.toNat - 0xe0) * 64 + (second.toNat - 0x80)) * 64 + (third.toNat - 0x80))) =
      [first, second, third] := by
  obtain ⟨secondLower, secondUpper, large, notSurrogate⟩ := inRange.bounds
  have parts : ((first.toNat - 0xe0) * 64 + (second.toNat - 0x80)) * 64 + (third.toNat - 0x80) =
      (first.toNat - 0xe0) * 4096 + (second.toNat - 0x80) * 64 + (third.toNat - 0x80) := by
    omega
  unfold String.utf8EncodeChar
  rw [parts]
  simp only [@toNat_ofNat ((first.toNat - 0xe0) * 4096 + (second.toNat - 0x80) * 64 +
    (third.toNat - 0x80)) (by omega)]
  rw [if_neg (by omega), if_neg (by omega), if_pos (by omega), @eq_ofNat first _ (by omega),
    @eq_ofNat second _ (by omega), @eq_ofNat third _ (by omega)]

theorem utf8EncodeChar_of_four (lower : 0xf0 ≤ first.toNat) (upper : first.toNat < 0xf5)
    (inRange : IsSecondOfFour first second) (thirdLower : 0x80 ≤ third.toNat)
    (thirdUpper : third.toNat ≤ 0xbf) (fourthLower : 0x80 ≤ fourth.toNat)
    (fourthUpper : fourth.toNat ≤ 0xbf) :
    String.utf8EncodeChar (Char.ofNat
      ((((first.toNat - 0xf0) * 64 + (second.toNat - 0x80)) * 64 + (third.toNat - 0x80)) * 64 +
        (fourth.toNat - 0x80))) =
      [first, second, third, fourth] := by
  obtain ⟨secondLower, secondUpper, large, notBeyond⟩ := inRange.bounds
  have parts : (((first.toNat - 0xf0) * 64 + (second.toNat - 0x80)) * 64 +
      (third.toNat - 0x80)) * 64 + (fourth.toNat - 0x80) =
      (first.toNat - 0xf0) * 262144 + (second.toNat - 0x80) * 4096 + (third.toNat - 0x80) * 64 +
        (fourth.toNat - 0x80) := by
    omega
  unfold String.utf8EncodeChar
  rw [parts]
  simp only [@toNat_ofNat ((first.toNat - 0xf0) * 262144 + (second.toNat - 0x80) * 4096 +
    (third.toNat - 0x80) * 64 + (fourth.toNat - 0x80)) (by omega)]
  rw [if_neg (by omega), if_neg (by omega), if_neg (by omega), @eq_ofNat first _ (by omega),
    @eq_ofNat second _ (by omega), @eq_ofNat third _ (by omega), @eq_ofNat fourth _ (by omega)]

end

/-! ### Bytes that are read -/

/-- What a first byte can begin, by its range. -/
inductive Begins (first : UInt8) : ByteOutcome → Prop
  | one (small : first.toNat < 0x80) : Begins first (.complete (Char.ofNat first.toNat))
  | two (lower : 0xc2 ≤ first.toNat) (upper : first.toNat < 0xe0) :
      Begins first (.unfinished ⟨1, first.toNat - 0xc0, 0x80, 0xbf⟩)
  | three (lower : 0xe0 ≤ first.toNat) (upper : first.toNat < 0xf0) :
      Begins first (.unfinished ⟨2, first.toNat - 0xe0, if first = 0xe0 then 0xa0 else 0x80,
        if first = 0xed then 0x9f else 0xbf⟩)
  | four (lower : 0xf0 ≤ first.toNat) (upper : first.toNat < 0xf5) :
      Begins first (.unfinished ⟨3, first.toNat - 0xf0, if first = 0xf0 then 0x90 else 0x80,
        if first = 0xf4 then 0x8f else 0xbf⟩)
  | stray : Begins first .stray

theorem begins_firstByte (first : UInt8) : Begins first (firstByte first) := by
  unfold firstByte
  split
  · next small => exact .one (UInt8.lt_iff_toNat_lt.mp small)
  next notSmall =>
  split
  · exact .stray
  next notStray =>
  have lower : 0xc2 ≤ first.toNat :=
    Nat.le_of_not_lt fun less => notStray (UInt8.lt_iff_toNat_lt.mpr less)
  split
  · next isTwo => exact .two lower (UInt8.lt_iff_toNat_lt.mp isTwo)
  next notTwo =>
  have lower : 0xe0 ≤ first.toNat :=
    Nat.le_of_not_lt fun less => notTwo (UInt8.lt_iff_toNat_lt.mpr less)
  split
  · next isThree => exact .three lower (UInt8.lt_iff_toNat_lt.mp isThree)
  next notThree =>
  have lower : 0xf0 ≤ first.toNat :=
    Nat.le_of_not_lt fun less => notThree (UInt8.lt_iff_toNat_lt.mpr less)
  split
  · next isFour => exact .four lower (UInt8.lt_iff_toNat_lt.mp isFour)
  · exact .stray

section

variable {bytes : List UInt8} {chars : List Char} {code : Nat} {lowest highest : UInt8}

/-- A piece that lacks one byte is completed by the next. -/
theorem exists_last (read : decodeAfter? (some ⟨1, code, lowest, highest⟩) bytes = some chars) :
    ∃ byte rest later, bytes = byte :: rest ∧ lowest.toNat ≤ byte.toNat ∧
      byte.toNat ≤ highest.toNat ∧
      chars = Char.ofNat (code * 64 + (byte.toNat - 0x80)) :: later ∧
      decodeAfter? none rest = some later := by
  cases bytes with
  | nil => cases read
  | cons byte rest =>
    by_cases inRange : lowest ≤ byte ∧ byte ≤ highest
    · have next : nextByte? ⟨1, code, lowest, highest⟩ byte =
          some (.complete (Char.ofNat (code * 64 + (byte.toNat - 0x80)))) :=
        (if_pos inRange).trans (if_pos (Nat.le_refl 1))
      rw [decodeAfter?_of_last rest next, Option.map_eq_some_iff] at read
      obtain ⟨later, readLater, rfl⟩ := read
      exact ⟨byte, rest, later, rfl, UInt8.le_iff_toNat_le.mp inRange.1,
        UInt8.le_iff_toNat_le.mp inRange.2, rfl, readLater⟩
    · have next : nextByte? ⟨1, code, lowest, highest⟩ byte = none := if_neg inRange
      rw [decodeAfter?, next] at read
      cases read

/-- A piece that lacks more goes on with the next byte. -/
theorem exists_further {missing : Nat}
    (read : decodeAfter? (some ⟨missing + 2, code, lowest, highest⟩) bytes = some chars) :
    ∃ byte rest, bytes = byte :: rest ∧ lowest.toNat ≤ byte.toNat ∧ byte.toNat ≤ highest.toNat ∧
      decodeAfter? (some ⟨missing + 1, code * 64 + (byte.toNat - 0x80), 0x80, 0xbf⟩) rest =
        some chars := by
  cases bytes with
  | nil => cases read
  | cons byte rest =>
    by_cases inRange : lowest ≤ byte ∧ byte ≤ highest
    · have next : nextByte? ⟨missing + 2, code, lowest, highest⟩ byte =
          some (.unfinished ⟨missing + 1, code * 64 + (byte.toNat - 0x80), 0x80, 0xbf⟩) :=
        (if_pos inRange).trans (if_neg (Nat.not_le_of_lt (Nat.lt_add_left missing Nat.one_lt_two)))
      rw [decodeAfter?_of_further rest next] at read
      exact ⟨byte, rest, rfl, UInt8.le_iff_toNat_le.mp inRange.1,
        UInt8.le_iff_toNat_le.mp inRange.2, read⟩
    · have next : nextByte? ⟨missing + 2, code, lowest, highest⟩ byte = none := if_neg inRange
      rw [decodeAfter?, next] at read
      cases read

/-- Bytes from which characters are read begin with the bytes of the first of them. -/
theorem exists_first {first : UInt8} {following : List UInt8}
    (read : decodeAfter? none (first :: following) = some chars) :
    ∃ char rest later, chars = char :: later ∧
      first :: following = String.utf8EncodeChar char ++ rest ∧
      decodeAfter? none rest = some later := by
  have begins := begins_firstByte first
  rw [decodeAfter?] at read
  generalize firstByte first = outcome at begins read
  cases begins with
  | one small =>
    obtain ⟨later, readLater, rfl⟩ := Option.map_eq_some_iff.mp read
    exact ⟨_, following, later, rfl, by rw [utf8EncodeChar_of_one small]; rfl, readLater⟩
  | two lower upper =>
    obtain ⟨second, rest, later, rfl, secondLower, secondUpper, rfl, readLater⟩ := exists_last read
    refine ⟨_, rest, later, rfl, ?_, readLater⟩
    rw [utf8EncodeChar_of_two lower upper secondLower secondUpper]
    rfl
  | three lower upper =>
    obtain ⟨second, _, rfl, secondLower, secondUpper, read⟩ := exists_further read
    obtain ⟨third, rest, later, rfl, thirdLower, thirdUpper, rfl, readLater⟩ := exists_last read
    refine ⟨_, rest, later, rfl, ?_, readLater⟩
    rw [utf8EncodeChar_of_three lower upper ⟨secondLower, secondUpper⟩ thirdLower thirdUpper]
    rfl
  | four lower upper =>
    obtain ⟨second, _, rfl, secondLower, secondUpper, read⟩ := exists_further read
    obtain ⟨third, _, rfl, thirdLower, thirdUpper, read⟩ := exists_further read
    obtain ⟨fourth, rest, later, rfl, fourthLower, fourthUpper, rfl, readLater⟩ := exists_last read
    refine ⟨_, rest, later, rfl, ?_, readLater⟩
    rw [utf8EncodeChar_of_four lower upper ⟨secondLower, secondUpper⟩ thirdLower thirdUpper
      fourthLower fourthUpper]
    rfl
  | stray => cases read

/-- Bytes from which characters are read are the bytes of these characters. -/
theorem eq_flatMap_of_decodeAfter? (read : decodeAfter? none bytes = some chars) :
    bytes = chars.flatMap String.utf8EncodeChar := by
  induction chars generalizing bytes with
  | nil =>
    cases bytes with
    | nil => rfl
    | cons first following =>
      obtain ⟨char, rest, later, isCons, -⟩ := exists_first read
      cases isCons
  | cons char chars inductionHypothesis =>
    cases bytes with
    | nil => cases read
    | cons first following =>
      obtain ⟨char, rest, later, same, parts, readLater⟩ := exists_first read
      cases same
      rw [parts, inductionHypothesis readLater, List.flatMap_cons]

end

/-- A text is read from its bytes and from no others. -/
theorem decode?_eq_some_iff {bytes : List UInt8} {text : String} :
    decode? bytes = some text ↔ bytes = encode text := by
  refine ⟨fun read => ?_, fun same => same ▸ decode?_encode text⟩
  obtain ⟨chars, readChars, rfl⟩ := Option.map_eq_some_iff.mp read
  rw [encode, String.toList_ofList]
  exact eq_flatMap_of_decodeAfter? readChars

theorem encode_injective : Function.Injective encode := by
  intro first second same
  have read : decode? (encode second) = some first := same ▸ decode?_encode first
  exact Option.some.inj (read.symm.trans (decode?_encode second))

end SecretRenewal.Text
