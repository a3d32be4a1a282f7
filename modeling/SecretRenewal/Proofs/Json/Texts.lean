/-
This file proves that texts are read as what they say, however their characters are written: as they
are, by a letter after a backslash, by their number, or by the two numbers of a surrogate pair. The
reader collects bytes and makes text of them at the end, so it is enough that every way of writing a
character adds the bytes of this character. A text that is only skipped is passed over in all these
ways as well.
-/
import SecretRenewal.Proofs.Json.Readers
import SecretRenewal.Proofs.Text.Utf8

namespace SecretRenewal.Json

/-! ### Bytes of characters -/

theorem toNat_byteOf {char : Char} (basic : char.toNat < 0x80) :
    (byteOf char).toNat = char.toNat := by
  show char.toNat % 256 = char.toNat
  omega

/-- Bytes that stand in a text for themselves: no control characters, no quote, no backslash. -/
def IsPlain (byte : UInt8) : Prop := 0x20 ≤ byte.toNat ∧ byte.toNat ≠ 0x22 ∧ byte.toNat ≠ 0x5c

/-- A character that stands for itself is written in plain bytes. -/
theorem isPlain_of_mem {char : Char} (notControl : 0x20 ≤ char.toNat) (notQuote : char ≠ '"')
    (notBackslash : char ≠ '\\') {byte : UInt8} (member : byte ∈ String.utf8EncodeChar char) :
    IsPlain byte := by
  rcases Text.toNat_of_mem_utf8EncodeChar member with same | beyond
  · unfold IsPlain
    rw [same]
    refine ⟨notControl, fun quote => notQuote ?_, fun backslash => notBackslash ?_⟩
    · exact Char.toNat_inj.mp quote
    · exact Char.toNat_inj.mp backslash
  · unfold IsPlain
    omega

/-! ### Digits in base sixteen -/

theorem digitValue?_cases {char : Char} {value : Nat}
    (isDigit : Text.digitValue? char = some value) :
    (48 ≤ char.toNat ∧ char.toNat ≤ 57 ∧ value = char.toNat - 48) ∨
      (97 ≤ char.toNat ∧ char.toNat ≤ 122 ∧ value = char.toNat - 87) ∨
      (65 ≤ char.toNat ∧ char.toNat ≤ 90 ∧ value = char.toNat - 55) := by
  unfold Text.digitValue? at isDigit
  simp only [Char.le_def, UInt32.le_iff_toNat_le] at isDigit
  have isCode : char.val.toNat = char.toNat := rfl
  simp only [isCode] at isDigit
  split at isDigit
  · cases isDigit
    rename_i range
    exact .inl ⟨range.1, range.2, rfl⟩
  split at isDigit
  · cases isDigit
    rename_i range
    exact .inr (.inl ⟨range.1, range.2, by simp at range ⊢; omega⟩)
  split at isDigit
  · cases isDigit
    rename_i range
    exact .inr (.inr ⟨range.1, range.2, by simp at range ⊢; omega⟩)
  · cases isDigit

/-- A hexadecimal digit has the same value as a byte and as a character. -/
theorem hexValue?_byteOf {char : Char} {value : Nat}
    (isDigit : Text.digitIn? 16 char = some value) : hexValue? (byteOf char) = some value := by
  obtain ⟨isValue, small⟩ := Option.filter_eq_some_iff.mp isDigit
  have small : value < 16 := by simpa using small
  have isDigitByte (toNat : (byteOf char).toNat = char.toNat) :
      Json.isDigit (byteOf char) = true ↔ 48 ≤ char.toNat ∧ char.toNat ≤ 57 := by
    rw [isDigit_iff, toNat]
  unfold hexValue?
  rcases digitValue?_cases isValue with ⟨lower, upper, rfl⟩ | ⟨lower, upper, rfl⟩ |
    ⟨lower, upper, rfl⟩
  · have toNat : (byteOf char).toNat = char.toNat := toNat_byteOf (by omega)
    rw [if_pos ((isDigitByte toNat).mpr ⟨lower, upper⟩), digitValue, toNat]
  · have toNat : (byteOf char).toNat = char.toNat := toNat_byteOf (by omega)
    simp only [UInt8.le_iff_toNat_le, toNat]
    rw [if_neg (by rw [isDigitByte toNat]; omega), if_pos ⟨lower, by show _ ≤ 102; omega⟩]
  · have toNat : (byteOf char).toNat = char.toNat := toNat_byteOf (by omega)
    simp only [UInt8.le_iff_toNat_le, toNat]
    rw [if_neg (by rw [isDigitByte toNat]; omega),
      if_neg (fun range => absurd (show 97 ≤ char.toNat from range.1) (by omega)),
      if_pos ⟨lower, by show _ ≤ 70; omega⟩]

/-- Four digits that write a number are read as this number. -/
theorem WritesCode.hexWord? {digits : List Char} {code : Nat} (written : WritesCode digits code) :
    ∃ first second third fourth, digits.map byteOf = [first, second, third, fourth] ∧
      Json.hexWord? first second third fourth = some code := by
  obtain ⟨four, value⟩ := written
  match digits, four with
  | [first, second, third, fourth], _ =>
    simp only [Text.numberIn?, List.foldlM_cons, List.foldlM_nil, Option.bind_eq_bind,
      Option.bind_eq_some_iff, Option.map_eq_some_iff, Option.pure_def, Option.some.injEq] at value
    obtain ⟨_, ⟨a, isA, rfl⟩, _, ⟨b, isB, rfl⟩, _, ⟨c, isC, rfl⟩, _, ⟨d, isD, rfl⟩, rfl⟩ := value
    refine ⟨_, _, _, _, rfl, ?_⟩
    simp only [Json.hexWord?, hexValue?_byteOf isA, hexValue?_byteOf isB, hexValue?_byteOf isC,
      hexValue?_byteOf isD]
    refine congrArg some ?_
    omega

/-! ### Taking up bytes -/

namespace Reader

section

variable {reversed rest : List UInt8}

theorem textBytes_of_plain {byte : UInt8} (plain : IsPlain byte) :
    textBytes none reversed (byte :: rest) = textBytes none (byte :: reversed) rest := by
  obtain ⟨notControl, notQuote, notBackslash⟩ := plain
  rw [textBytes.eq_def]
  dsimp only
  rw [if_neg fun same => notBackslash (congrArg UInt8.toNat same), if_neg (by simp),
    if_neg fun same => notQuote (congrArg UInt8.toNat same),
    if_neg (by rw [UInt8.lt_iff_toNat_lt]; exact Nat.not_lt.mpr notControl)]

theorem textBytes_append {bytes : List UInt8} (plain : ∀ byte ∈ bytes, IsPlain byte) :
    textBytes none reversed (bytes ++ rest) = textBytes none (bytes.reverse ++ reversed) rest := by
  induction bytes generalizing reversed with
  | nil => rfl
  | cons byte bytes inductionHypothesis =>
    rw [List.cons_append, textBytes_of_plain (plain byte List.mem_cons_self),
      inductionHypothesis fun other member => plain other (List.mem_cons_of_mem _ member)]
    simp

theorem textBytes_of_short {letter char : Char} (escape : (letter, char) ∈ shortEscapes) :
    textBytes none reversed (byteOf '\\' :: byteOf letter :: rest) =
      textBytes none ((String.utf8EncodeChar char).reverse ++ reversed) rest := by
  rw [textBytes.eq_def]
  simp only [shortEscapes, List.mem_cons, Prod.mk.injEq, List.not_mem_nil, or_false] at escape
  rcases escape with ⟨rfl, rfl⟩ | ⟨rfl, rfl⟩ | ⟨rfl, rfl⟩ | ⟨rfl, rfl⟩ | ⟨rfl, rfl⟩ | ⟨rfl, rfl⟩ |
    ⟨rfl, rfl⟩ | ⟨rfl, rfl⟩ <;> rfl

theorem textBytes_of_code {digits : List Char} {code : Nat} (written : WritesCode digits code)
    (notLeading : ¬(0xd800 ≤ code ∧ code ≤ 0xdbff))
    (notTrailing : ¬(0xdc00 ≤ code ∧ code ≤ 0xdfff)) :
    textBytes none reversed (byteOf '\\' :: byteOf 'u' :: (digits.map byteOf ++ rest)) =
      textBytes none (pushCode code reversed) rest := by
  obtain ⟨first, second, third, fourth, four, value⟩ := written.hexWord?
  rw [four, textBytes.eq_def]
  simp only [List.cons_append, List.nil_append, value, if_true, if_neg notTrailing,
    if_neg notLeading]

/-- The leading half of a pair waits for the other. -/
theorem textBytes_of_leading {digits : List Char} {code : Nat} (written : WritesCode digits code)
    (isLeading : 0xd800 ≤ code ∧ code ≤ 0xdbff) :
    textBytes none reversed (byteOf '\\' :: byteOf 'u' :: (digits.map byteOf ++ rest)) =
      textBytes (some code) reversed rest := by
  obtain ⟨first, second, third, fourth, four, value⟩ := written.hexWord?
  rw [four, textBytes.eq_def]
  have notTrailing : ¬(0xdc00 ≤ code ∧ code ≤ 0xdfff) := by omega
  simp only [List.cons_append, List.nil_append, value, if_true, if_neg notTrailing,
    if_pos isLeading]

/-- The two halves of a pair make one character. -/
theorem textBytes_of_trailing {high : Nat} {digits : List Char} {code : Nat}
    (written : WritesCode digits code) (isTrailing : 0xdc00 ≤ code ∧ code ≤ 0xdfff) :
    textBytes (some high) reversed (byteOf '\\' :: byteOf 'u' :: (digits.map byteOf ++ rest)) =
      textBytes none
        (pushCode ((high - 0xd800) * 1024 + (code - 0xdc00) + 0x10000) reversed) rest := by
  obtain ⟨first, second, third, fourth, four, value⟩ := written.hexWord?
  rw [four, textBytes.eq_def]
  simp only [List.cons_append, List.nil_append, value, if_true, if_pos isTrailing]

end

/-- However a character is written, its own bytes are taken up. -/
theorem textBytes_of_char {char : Char} {bytes : List UInt8} (written : WritesChar char bytes)
    (reversed rest : List UInt8) : textBytes none reversed (bytes ++ rest) =
      textBytes none ((String.utf8EncodeChar char).reverse ++ reversed) rest := by
  have valid : char.toNat < 0xd800 ∨ 0xdfff < char.toNat ∧ char.toNat < 0x110000 := char.valid
  cases written with
  | plain notControl notQuote notBackslash =>
    exact textBytes_append fun byte member => isPlain_of_mem notControl notQuote notBackslash member
  | short escape => exact textBytes_of_short escape
  | code written =>
    refine (textBytes_of_code written (by omega) (by omega)).trans ?_
    rw [pushCode, Char.ofNat_toNat]
  | pair writtenHigh writtenLow isLeading isTrailing sum =>
    rw [List.append_assoc]
    refine (textBytes_of_leading writtenHigh isLeading).trans ?_
    refine (textBytes_of_trailing writtenLow isTrailing).trans ?_
    rw [← sum, pushCode, Char.ofNat_toNat]

/-- The bytes of all characters are collected, the last first, up to the closing quote. -/
theorem textBytes_of_chars {chars : List Char} {bytes : List UInt8}
    (written : WritesChars chars bytes) (reversed rest : List UInt8) :
    textBytes none reversed (bytes ++ byteOf '"' :: rest) =
      .ok ((chars.flatMap String.utf8EncodeChar).reverse ++ reversed, rest) := by
  induction written generalizing reversed with
  | nil =>
    rw [List.nil_append, textBytes.eq_def]
    rfl
  | cons first others inductionHypothesis =>
    rw [List.append_assoc, textBytes_of_char first, inductionHypothesis]
    simp

/-- A written text is read as what it says. -/
theorem text_of_chars {value : String} {bytes : List UInt8}
    (written : WritesChars value.toList bytes) (rest : List UInt8) :
    text (bytes ++ byteOf '"' :: rest) = .ok (value, rest) := by
  have decoded := Text.decode?_encode value
  unfold Text.encode at decoded
  unfold text
  refine (bind_of_ok rfl _).trans ?_
  rw [textBytes_of_chars written]
  simp only [List.append_nil, List.reverse_reverse, decoded]
  rfl

/-! ### Passing over -/

section

variable {rest : List UInt8}

theorem afterText_append {bytes : List UInt8} (plain : ∀ byte ∈ bytes, IsPlain byte) :
    afterText (bytes ++ rest) = afterText rest := by
  induction bytes with
  | nil => rfl
  | cons byte bytes inductionHypothesis =>
    obtain ⟨notControl, notQuote, notBackslash⟩ := plain byte List.mem_cons_self
    rw [List.cons_append, afterText.eq_def]
    dsimp only
    rw [if_neg fun same => notQuote (congrArg UInt8.toNat same),
      if_neg fun same => notBackslash (congrArg UInt8.toNat same),
      if_neg (by rw [UInt8.lt_iff_toNat_lt]; exact Nat.not_lt.mpr notControl)]
    exact inductionHypothesis fun other member => plain other (List.mem_cons_of_mem _ member)

theorem afterText_of_short {letter char : Char} (escape : (letter, char) ∈ shortEscapes) :
    afterText (byteOf '\\' :: byteOf letter :: rest) = afterText rest := by
  rw [afterText.eq_def]
  simp only [shortEscapes, List.mem_cons, Prod.mk.injEq, List.not_mem_nil, or_false] at escape
  rcases escape with ⟨rfl, rfl⟩ | ⟨rfl, rfl⟩ | ⟨rfl, rfl⟩ | ⟨rfl, rfl⟩ | ⟨rfl, rfl⟩ | ⟨rfl, rfl⟩ |
    ⟨rfl, rfl⟩ | ⟨rfl, rfl⟩ <;> rfl

theorem afterText_of_code {digits : List Char} {code : Nat} (written : WritesCode digits code) :
    afterText (byteOf '\\' :: byteOf 'u' :: (digits.map byteOf ++ rest)) = afterText rest := by
  obtain ⟨first, second, third, fourth, four, value⟩ := written.hexWord?
  rw [four, afterText.eq_def]
  simp only [List.cons_append, List.nil_append, value]
  rfl

end

/-- A written character is passed over as a whole. -/
theorem afterText_of_char {char : Char} {bytes : List UInt8} (written : WritesChar char bytes)
    (rest : List UInt8) : afterText (bytes ++ rest) = afterText rest := by
  cases written with
  | plain notControl notQuote notBackslash =>
    exact afterText_append fun byte member => isPlain_of_mem notControl notQuote notBackslash member
  | short escape => exact afterText_of_short escape
  | code written => exact afterText_of_code written
  | pair writtenHigh writtenLow =>
    rw [List.append_assoc]
    exact (afterText_of_code writtenHigh).trans (afterText_of_code writtenLow)

theorem afterText_of_chars {chars : List Char} {bytes : List UInt8}
    (written : WritesChars chars bytes) (rest : List UInt8) :
    afterText (bytes ++ byteOf '"' :: rest) = .ok rest := by
  induction written with
  | nil =>
    rw [List.nil_append, afterText.eq_def]
    rfl
  | cons first others inductionHypothesis =>
    rw [List.append_assoc, afterText_of_char first, inductionHypothesis]

/-- A written text is passed over. -/
theorem skipText_of_chars {chars : List Char} {bytes : List UInt8}
    (written : WritesChars chars bytes) (rest : List UInt8) :
    skipText (bytes ++ byteOf '"' :: rest) = .ok ((), rest) := by
  unfold skipText
  refine (bind_of_ok rfl _).trans ?_
  rw [afterText_of_chars written]
  rfl

end Reader

end SecretRenewal.Json
