/-
This file proves that text is read back from its bytes. A character is written as one to four
bytes; the first byte holds its highest bits and each further byte six more, so taking the bytes
one at a time puts the bits together again. The narrower range that some second bytes have never
gets in the way, since no character lies outside it.
-/
import SecretRenewal.Text.Utf8

namespace SecretRenewal.Text

/-! ### One byte -/

section

variable {value : Nat}

theorem toNat_byte (small : value < 0x100) : (UInt8.ofNat value).toNat = value :=
  UInt8.toNat_ofNat_of_lt' small

theorem firstByte_of_ascii (small : value < 0x80) :
    firstByte (UInt8.ofNat value) = .complete (Char.ofNat value) := by
  have toNat : (UInt8.ofNat value).toNat = value := toNat_byte (by omega)
  unfold firstByte
  rw [if_pos (UInt8.lt_iff_toNat_lt.mpr (by rw [toNat]; exact small)), toNat]

theorem firstByte_of_two (lower : 0xc2 ≤ value) (upper : value < 0xe0) :
    firstByte (UInt8.ofNat value) = .unfinished ⟨1, value - 0xc0, 0x80, 0xbf⟩ := by
  have toNat : (UInt8.ofNat value).toNat = value := toNat_byte (by omega)
  unfold firstByte
  simp only [UInt8.lt_iff_toNat_lt, toNat]
  rw [if_neg (by simp; omega), if_neg (by simp; omega), if_pos (by simp; omega)]

/-- After two of the first bytes of three the second byte has a narrower range. -/
theorem firstByte_of_three (lower : 0xe0 ≤ value) (upper : value < 0xf0) :
    firstByte (UInt8.ofNat value) =
      .unfinished ⟨2, value - 0xe0, if value = 0xe0 then 0xa0 else 0x80,
        if value = 0xed then 0x9f else 0xbf⟩ := by
  have toNat : (UInt8.ofNat value).toNat = value := toNat_byte (by omega)
  unfold firstByte
  simp only [UInt8.lt_iff_toNat_lt, toNat, ← UInt8.toNat_inj]
  rw [if_neg (by simp; omega), if_neg (by simp; omega), if_neg (by simp; omega),
    if_pos (by simp; omega)]
  rfl

theorem firstByte_of_four (lower : 0xf0 ≤ value) (upper : value < 0xf5) :
    firstByte (UInt8.ofNat value) =
      .unfinished ⟨3, value - 0xf0, if value = 0xf0 then 0x90 else 0x80,
        if value = 0xf4 then 0x8f else 0xbf⟩ := by
  have toNat : (UInt8.ofNat value).toNat = value := toNat_byte (by omega)
  unfold firstByte
  simp only [UInt8.lt_iff_toNat_lt, toNat, ← UInt8.toNat_inj]
  rw [if_neg (by simp; omega), if_neg (by simp; omega), if_neg (by simp; omega),
    if_neg (by simp; omega), if_pos (by simp; omega)]
  rfl

/-- The last byte completes the character. -/
theorem nextByte?_of_last {code whole : Nat} {lowest highest : UInt8} (small : value < 0x100)
    (lower : lowest.toNat ≤ value) (upper : value ≤ highest.toNat)
    (sum : code * 64 + (value - 0x80) = whole) :
    nextByte? ⟨1, code, lowest, highest⟩ (UInt8.ofNat value) =
      some (.complete (Char.ofNat whole)) := by
  unfold nextByte?
  simp only [UInt8.le_iff_toNat_le, toNat_byte small]
  rw [if_pos ⟨lower, upper⟩, if_pos (Nat.le_refl 1), sum]

theorem nextByte?_of_further {missing code : Nat} {lowest highest : UInt8}
    (small : value < 0x100) (lower : lowest.toNat ≤ value) (upper : value ≤ highest.toNat) :
    nextByte? ⟨missing + 2, code, lowest, highest⟩ (UInt8.ofNat value) =
      some (.unfinished ⟨missing + 1, code * 64 + (value - 0x80), 0x80, 0xbf⟩) := by
  unfold nextByte?
  simp only [UInt8.le_iff_toNat_le, toNat_byte small]
  rw [if_pos ⟨lower, upper⟩, if_neg (by omega)]
  rfl

end

/-! ### One character -/

section

variable (rest : List UInt8)

theorem decodeAfter?_of_complete {byte : UInt8} {char : Char}
    (first : firstByte byte = .complete char) :
    decodeAfter? none (byte :: rest) = (decodeAfter? none rest).map (char :: ·) := by
  rw [decodeAfter?, first]

theorem decodeAfter?_of_unfinished {byte : UInt8} {piece : Partial}
    (first : firstByte byte = .unfinished piece) :
    decodeAfter? none (byte :: rest) = decodeAfter? (some piece) rest := by
  rw [decodeAfter?, first]

theorem decodeAfter?_of_last {piece : Partial} {byte : UInt8} {char : Char}
    (next : nextByte? piece byte = some (.complete char)) :
    decodeAfter? (some piece) (byte :: rest) = (decodeAfter? none rest).map (char :: ·) := by
  rw [decodeAfter?, next]

theorem decodeAfter?_of_further {piece longer : Partial} {byte : UInt8}
    (next : nextByte? piece byte = some (.unfinished longer)) :
    decodeAfter? (some piece) (byte :: rest) = decodeAfter? (some longer) rest := by
  rw [decodeAfter?, next]

/-- The bytes of a character are read as this character, whatever follows. -/
theorem decodeAfter?_utf8EncodeChar (char : Char) :
    decodeAfter? none (String.utf8EncodeChar char ++ rest) =
      (decodeAfter? none rest).map (char :: ·) := by
  have valid : char.toNat < 0xd800 ∨ 0xdfff < char.toNat ∧ char.toNat < 0x110000 := char.valid
  have back : Char.ofNat char.toNat = char := Char.ofNat_toNat char
  have isCode : char.val.toNat = char.toNat := rfl
  unfold String.utf8EncodeChar
  simp only [isCode]
  generalize char.toNat = code at valid back
  subst back
  split
  · exact decodeAfter?_of_complete rest (firstByte_of_ascii (by omega))
  split
  · refine (decodeAfter?_of_unfinished _ (firstByte_of_two (by omega) (by omega))).trans ?_
    exact decodeAfter?_of_last rest
      (nextByte?_of_last (by omega) (by simp) (by simp; omega) (by omega))
  split
  · refine (decodeAfter?_of_unfinished _ (firstByte_of_three (by omega) (by omega))).trans ?_
    refine (decodeAfter?_of_further _ (nextByte?_of_further (by omega) (by split <;> simp; omega)
      (by split <;> (simp; omega)))).trans ?_
    exact decodeAfter?_of_last rest
      (nextByte?_of_last (by omega) (by simp) (by simp; omega) (by omega))
  · refine (decodeAfter?_of_unfinished _ (firstByte_of_four (by omega) (by omega))).trans ?_
    refine (decodeAfter?_of_further _ (nextByte?_of_further (by omega) (by split <;> simp; omega)
      (by split <;> (simp; omega)))).trans ?_
    refine (decodeAfter?_of_further _
      (nextByte?_of_further (by omega) (by simp) (by simp; omega))).trans ?_
    exact decodeAfter?_of_last rest
      (nextByte?_of_last (by omega) (by simp) (by simp; omega) (by omega))

end

/-- A byte of a character is the character itself, or beyond the basic ones. -/
theorem toNat_of_mem_utf8EncodeChar {char : Char} {byte : UInt8}
    (member : byte ∈ String.utf8EncodeChar char) :
    byte.toNat = char.toNat ∨ 0x80 ≤ byte.toNat := by
  have isCode : char.val.toNat = char.toNat := rfl
  unfold String.utf8EncodeChar at member
  simp only [isCode] at member
  split at member
  · rw [List.mem_singleton] at member
    rw [member, toNat_byte (by omega)]
    exact .inl rfl
  refine .inr ?_
  split at member
  · simp only [List.mem_cons, List.not_mem_nil, or_false] at member
    rcases member with rfl | rfl <;> rw [toNat_byte (by omega)] <;> omega
  split at member
  · simp only [List.mem_cons, List.not_mem_nil, or_false] at member
    rcases member with rfl | rfl | rfl <;> rw [toNat_byte (by omega)] <;> omega
  · simp only [List.mem_cons, List.not_mem_nil, or_false] at member
    rcases member with rfl | rfl | rfl | rfl <;> rw [toNat_byte (by omega)] <;> omega

/-! ### Whole texts -/

/-- By induction on the characters, all of them are read back. -/
theorem decodeAfter?_flatMap (chars : List Char) :
    decodeAfter? none (chars.flatMap String.utf8EncodeChar) = some chars := by
  induction chars with
  | nil => rfl
  | cons char rest inductionHypothesis =>
    rw [List.flatMap_cons, decodeAfter?_utf8EncodeChar, inductionHypothesis]
    rfl

/-- The bytes of a text are read as this text. -/
theorem decode?_encode (text : String) : decode? (encode text) = some text := by
  unfold decode? encode
  rw [decodeAfter?_flatMap, Option.map_some, String.ofList_toList]

end SecretRenewal.Text
