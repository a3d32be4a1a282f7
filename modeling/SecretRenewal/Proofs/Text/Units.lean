/-
This file says what lenient reading makes of bytes in units of two. A character takes one unit, or
two halves of one. A half that stands alone is read as a replacement character, and so is what the
bytes break off in, which may be a first half, one byte, or both. This settles every reading, and
bytes of a text are read as the text itself.
-/
import SecretRenewal.Proofs.Text.Strictness
import SecretRenewal.Text.Marked

namespace SecretRenewal.Text

/-! ### Units -/

/-- A unit in two bytes. -/
def bytesOfUnit (greaterFirst : Bool) (unit : Nat) : List UInt8 :=
  if greaterFirst then [UInt8.ofNat (unit / 256), UInt8.ofNat (unit % 256)]
  else [UInt8.ofNat (unit % 256), UInt8.ofNat (unit / 256)]

/-- A character in one unit, or in two halves. -/
def unitsOfChar (char : Char) : List Nat :=
  if char.toNat < 0x10000 then [char.toNat]
  else [0xd800 + (char.toNat - 0x10000) / 0x400, 0xdc00 + (char.toNat - 0x10000) % 0x400]

/-- A character in units of two bytes. -/
def encodeUnits (greaterFirst : Bool) (char : Char) : List UInt8 :=
  (unitsOfChar char).flatMap (bytesOfUnit greaterFirst)

/-- Bytes in units of two as characters, with each half that stands alone replaced, and with what
the bytes break off in replaced as a whole. -/
inductive ReplacesUnits (greaterFirst : Bool) : List UInt8 → List Char → Prop
  | done : ReplacesUnits greaterFirst [] []
  | char (char : Char) {rest : List UInt8} {chars : List Char}
      (later : ReplacesUnits greaterFirst rest chars) :
      ReplacesUnits greaterFirst (encodeUnits greaterFirst char ++ rest) (char :: chars)
  | second {unit : Nat} (small : unit < 0x10000) (trails : isTrailing unit = true)
      {rest : List UInt8} {chars : List Char} (later : ReplacesUnits greaterFirst rest chars) :
      ReplacesUnits greaterFirst (bytesOfUnit greaterFirst unit ++ rest) (replacement :: chars)
  | first {unit next : Nat} (small : unit < 0x10000) (leads : isLeading unit = true)
      (nextSmall : next < 0x10000) (notTrailing : isTrailing next = false)
      {rest : List UInt8} {chars : List Char}
      (later : ReplacesUnits greaterFirst (bytesOfUnit greaterFirst next ++ rest) chars) :
      ReplacesUnits greaterFirst
        (bytesOfUnit greaterFirst unit ++ (bytesOfUnit greaterFirst next ++ rest))
        (replacement :: chars)
  | cutOff {unit : Nat} (small : unit < 0x10000) (leads : isLeading unit = true)
      {last : List UInt8} (few : last.length ≤ 1) :
      ReplacesUnits greaterFirst (bytesOfUnit greaterFirst unit ++ last) [replacement]
  | odd (byte : UInt8) : ReplacesUnits greaterFirst [byte] [replacement]

/-! ### Bytes of units -/

variable (greaterFirst : Bool)

theorem exists_bytesOfUnit {unit : Nat} (small : unit < 0x10000) :
    ∃ first second, bytesOfUnit greaterFirst unit = [first, second] ∧
      unitOf greaterFirst first second = unit := by
  have greater : (UInt8.ofNat (unit / 256)).toNat = unit / 256 := toNat_byte (by omega)
  have less : (UInt8.ofNat (unit % 256)).toNat = unit % 256 := toNat_byte (by omega)
  cases greaterFirst with
  | false =>
    refine ⟨_, _, rfl, ?_⟩
    show (UInt8.ofNat (unit / 256)).toNat * 256 + (UInt8.ofNat (unit % 256)).toNat = unit
    omega
  | true =>
    refine ⟨_, _, rfl, ?_⟩
    show (UInt8.ofNat (unit / 256)).toNat * 256 + (UInt8.ofNat (unit % 256)).toNat = unit
    omega

theorem unitOf_lt (first second : UInt8) : unitOf greaterFirst first second < 0x10000 := by
  have firstSmall := first.toNat_lt
  have secondSmall := second.toNat_lt
  unfold unitOf
  split <;> omega

theorem bytesOfUnit_unitOf (first second : UInt8) :
    bytesOfUnit greaterFirst (unitOf greaterFirst first second) = [first, second] := by
  have firstSmall := first.toNat_lt
  have secondSmall := second.toNat_lt
  cases greaterFirst with
  | false =>
    have greater : (second.toNat * 256 + first.toNat) / 256 = second.toNat := by omega
    have less : (second.toNat * 256 + first.toNat) % 256 = first.toNat := by omega
    simp [bytesOfUnit, unitOf, greater, less]
  | true =>
    have greater : (first.toNat * 256 + second.toNat) / 256 = first.toNat := by omega
    have less : (first.toNat * 256 + second.toNat) % 256 = second.toNat := by omega
    simp [bytesOfUnit, unitOf, greater, less]

theorem isLeading_iff {unit : Nat} : isLeading unit = true ↔ 0xd800 ≤ unit ∧ unit < 0xdc00 := by
  simp [isLeading]

theorem isTrailing_iff {unit : Nat} : isTrailing unit = true ↔ 0xdc00 ≤ unit ∧ unit < 0xe000 := by
  simp [isTrailing]

/-! ### What is read -/

variable {unit : Nat} (rest : List UInt8)

theorem decodeUnits_of_leading (small : unit < 0x10000) (leads : isLeading unit = true) :
    decodeUnits greaterFirst none (bytesOfUnit greaterFirst unit ++ rest) =
      decodeUnits greaterFirst (some unit) rest := by
  obtain ⟨first, second, isUnit, same⟩ := exists_bytesOfUnit greaterFirst small
  rw [isUnit, List.cons_append, List.cons_append, List.nil_append, decodeUnits]
  simp only [same, leads, if_true]

theorem decodeUnits_of_trailing (small : unit < 0x10000) (trails : isTrailing unit = true) :
    decodeUnits greaterFirst none (bytesOfUnit greaterFirst unit ++ rest) =
      replacement :: decodeUnits greaterFirst none rest := by
  have notLeading : isLeading unit = false := by
    rw [isTrailing_iff] at trails
    rw [← Bool.not_eq_true, isLeading_iff]
    omega
  obtain ⟨first, second, isUnit, same⟩ := exists_bytesOfUnit greaterFirst small
  rw [isUnit, List.cons_append, List.cons_append, List.nil_append, decodeUnits]
  simp only [same, notLeading, trails, if_true, Bool.false_eq_true, if_false]

/-- A first half that no second one follows is replaced, and the next unit is read anew. -/
theorem decodeUnits_of_alone (leading : Nat) (small : unit < 0x10000)
    (notTrailing : isTrailing unit = false) :
    decodeUnits greaterFirst (some leading) (bytesOfUnit greaterFirst unit ++ rest) =
      replacement :: decodeUnits greaterFirst none (bytesOfUnit greaterFirst unit ++ rest) := by
  obtain ⟨first, second, isUnit, same⟩ := exists_bytesOfUnit greaterFirst small
  rw [isUnit, List.cons_append, List.cons_append, List.nil_append, decodeUnits, decodeUnits]
  simp only [same, notTrailing, Bool.false_eq_true, if_false]
  split <;> rfl

/-- The units of a character are read as this character, whatever follows. -/
theorem decodeUnits_char (char : Char) :
    decodeUnits greaterFirst none (encodeUnits greaterFirst char ++ rest) =
      char :: decodeUnits greaterFirst none rest := by
  have valid : char.toNat < 0xd800 ∨ 0xdfff < char.toNat ∧ char.toNat < 0x110000 := char.valid
  unfold encodeUnits unitsOfChar
  split
  · rename_i small
    obtain ⟨first, second, isUnit, same⟩ := exists_bytesOfUnit greaterFirst small
    have notLeading : isLeading char.toNat = false := by
      rw [← Bool.not_eq_true, isLeading_iff]
      omega
    have notTrailing : isTrailing char.toNat = false := by
      rw [← Bool.not_eq_true, isTrailing_iff]
      omega
    rw [List.flatMap_singleton, isUnit, List.cons_append, List.cons_append, List.nil_append,
      decodeUnits]
    simp only [same, notLeading, notTrailing, Char.ofNat_toNat, Bool.false_eq_true, if_false]
  · rename_i large
    generalize isLeadingUnit : 0xd800 + (char.toNat - 0x10000) / 0x400 = leading
    generalize isTrailingUnit : 0xdc00 + (char.toNat - 0x10000) % 0x400 = trailing
    have leads : isLeading leading = true := isLeading_iff.mpr (by omega)
    have trails : isTrailing trailing = true := isTrailing_iff.mpr (by omega)
    have whole : 0x10000 + (leading - 0xd800) * 0x400 + (trailing - 0xdc00) = char.toNat := by
      omega
    obtain ⟨third, fourth, isSecond, same⟩ :=
      exists_bytesOfUnit greaterFirst (show trailing < 0x10000 by omega)
    rw [List.flatMap_cons, List.flatMap_singleton, List.append_assoc,
      decodeUnits_of_leading greaterFirst _ (by omega) leads, isSecond]
    simp only [List.cons_append, List.nil_append]
    rw [decodeUnits]
    simp only [same, trails, if_true, whole, Char.ofNat_toNat]

theorem encodeUnits_ofNat (small : unit < 0x10000) (notLeading : isLeading unit = false)
    (notTrailing : isTrailing unit = false) :
    encodeUnits greaterFirst (Char.ofNat unit) = bytesOfUnit greaterFirst unit := by
  rw [← Bool.not_eq_true, isLeading_iff] at notLeading
  rw [← Bool.not_eq_true, isTrailing_iff] at notTrailing
  have same : (Char.ofNat unit).toNat = unit := toNat_ofNat (by omega)
  unfold encodeUnits unitsOfChar
  rw [same, if_pos small, List.flatMap_singleton]

theorem encodeUnits_pair {leading : Nat} (leads : isLeading leading = true)
    (trails : isTrailing unit = true) :
    encodeUnits greaterFirst
        (Char.ofNat (0x10000 + (leading - 0xd800) * 0x400 + (unit - 0xdc00))) =
      bytesOfUnit greaterFirst leading ++ bytesOfUnit greaterFirst unit := by
  rw [isLeading_iff] at leads
  rw [isTrailing_iff] at trails
  generalize isCode : 0x10000 + (leading - 0xd800) * 0x400 + (unit - 0xdc00) = code
  have same : (Char.ofNat code).toNat = code := toNat_ofNat (by omega)
  have first : 0xd800 + (code - 0x10000) / 0x400 = leading := by omega
  have second : 0xdc00 + (code - 0x10000) % 0x400 = unit := by omega
  unfold encodeUnits unitsOfChar
  rw [same, if_neg (by omega), first, second, List.flatMap_cons, List.flatMap_singleton]

/-! ### Two bytes more -/

section

variable {greaterFirst} {first second : UInt8} {leading : Nat} {rest : List UInt8}

/-- A first half is read together with what follows it. -/
theorem ReplacesUnits.of_leading (leads : isLeading (unitOf greaterFirst first second) = true)
    (later : ReplacesUnits greaterFirst
      (bytesOfUnit greaterFirst (unitOf greaterFirst first second) ++ rest)
      (decodeUnits greaterFirst (some (unitOf greaterFirst first second)) rest)) :
    ReplacesUnits greaterFirst (first :: second :: rest)
      (decodeUnits greaterFirst none (first :: second :: rest)) := by
  have read := decodeUnits_of_leading greaterFirst rest (unitOf_lt greaterFirst first second) leads
  rw [bytesOfUnit_unitOf] at later read
  exact read ▸ later

theorem ReplacesUnits.of_trailing (trails : isTrailing (unitOf greaterFirst first second) = true)
    (later : ReplacesUnits greaterFirst rest (decodeUnits greaterFirst none rest)) :
    ReplacesUnits greaterFirst (first :: second :: rest)
      (decodeUnits greaterFirst none (first :: second :: rest)) := by
  have small := unitOf_lt greaterFirst first second
  have read := decodeUnits_of_trailing greaterFirst rest small trails
  have replaced := ReplacesUnits.second small trails later
  rw [bytesOfUnit_unitOf] at read replaced
  exact read ▸ replaced

/-- A unit that is no half is a character. -/
theorem ReplacesUnits.of_single
    (notLeading : ¬isLeading (unitOf greaterFirst first second) = true)
    (notTrailing : ¬isTrailing (unitOf greaterFirst first second) = true)
    (later : ReplacesUnits greaterFirst rest (decodeUnits greaterFirst none rest)) :
    ReplacesUnits greaterFirst (first :: second :: rest)
      (decodeUnits greaterFirst none (first :: second :: rest)) := by
  have isChar := encodeUnits_ofNat greaterFirst (unitOf_lt greaterFirst first second)
    (eq_false_of_ne_true notLeading) (eq_false_of_ne_true notTrailing)
  have read := decodeUnits_char greaterFirst rest (Char.ofNat (unitOf greaterFirst first second))
  have whole := ReplacesUnits.char (Char.ofNat (unitOf greaterFirst first second)) later
  rw [isChar, bytesOfUnit_unitOf] at read whole
  exact read ▸ whole

/-- Two halves are a character. -/
theorem ReplacesUnits.of_pair (leads : isLeading leading = true)
    (trails : isTrailing (unitOf greaterFirst first second) = true)
    (later : ReplacesUnits greaterFirst rest (decodeUnits greaterFirst none rest)) :
    ReplacesUnits greaterFirst (bytesOfUnit greaterFirst leading ++ first :: second :: rest)
      (decodeUnits greaterFirst (some leading) (first :: second :: rest)) := by
  have isChar := encodeUnits_pair greaterFirst leads trails
  generalize isPair : Char.ofNat (0x10000 + (leading - 0xd800) * 0x400 +
    (unitOf greaterFirst first second - 0xdc00)) = pair at isChar
  have read : decodeUnits greaterFirst (some leading) (first :: second :: rest) =
      pair :: decodeUnits greaterFirst none rest := by
    rw [decodeUnits, ← isPair]
    exact if_pos trails
  have whole := ReplacesUnits.char pair later
  rw [isChar, bytesOfUnit_unitOf, List.append_assoc] at whole
  exact read ▸ whole

/-- A first half without a second one is replaced, and what follows is read on its own. -/
theorem ReplacesUnits.of_alone (small : leading < 0x10000) (leads : isLeading leading = true)
    (notTrailing : ¬isTrailing (unitOf greaterFirst first second) = true)
    (later : ReplacesUnits greaterFirst (first :: second :: rest)
      (decodeUnits greaterFirst none (first :: second :: rest))) :
    ReplacesUnits greaterFirst (bytesOfUnit greaterFirst leading ++ first :: second :: rest)
      (decodeUnits greaterFirst (some leading) (first :: second :: rest)) := by
  have nextSmall := unitOf_lt greaterFirst first second
  have alone := eq_false_of_ne_true notTrailing
  have isUnit : bytesOfUnit greaterFirst (unitOf greaterFirst first second) ++ rest =
      first :: second :: rest := by rw [bytesOfUnit_unitOf]; rfl
  have read := decodeUnits_of_alone greaterFirst rest leading nextSmall alone
  rw [← isUnit] at later
  have replaced := ReplacesUnits.first small leads nextSmall alone later
  rw [isUnit] at read replaced
  exact read ▸ replaced

end

/-- What has been read of a half counts as bytes that are still to come. -/
theorem replacesUnits_of_half (half : Option Nat) (bytes : List UInt8)
    (halves : ∀ leading ∈ half, leading < 0x10000 ∧ isLeading leading = true) :
    ReplacesUnits greaterFirst (half.elim [] (bytesOfUnit greaterFirst) ++ bytes)
      (decodeUnits greaterFirst half bytes) := by
  have one {unit : Nat} (small : unit < 0x10000) (leads : isLeading unit = true) :
      ∀ leading ∈ some unit, leading < 0x10000 ∧ isLeading leading = true :=
    fun _ same => Option.some.inj same ▸ ⟨small, leads⟩
  induction half, bytes using decodeUnits.induct greaterFirst with
  | case1 => exact .done
  | case2 leading =>
    obtain ⟨small, leads⟩ := halves leading rfl
    exact .cutOff small leads (Nat.zero_le 1)
  | case3 half byte =>
    rw [decodeUnits]
    cases half with
    | none => exact .odd byte
    | some leading =>
      obtain ⟨small, leads⟩ := halves leading rfl
      exact .cutOff small leads (Nat.le_refl 1)
  | case4 first second rest unit leads inductionHypothesis =>
    exact .of_leading leads (inductionHypothesis (one (unitOf_lt ..) leads))
  | case5 first second rest unit notLeading trails inductionHypothesis =>
    exact .of_trailing trails (inductionHypothesis nofun)
  | case6 first second rest unit notLeading notTrailing inductionHypothesis =>
    exact .of_single notLeading notTrailing (inductionHypothesis nofun)
  | case7 leading first second rest unit trails inductionHypothesis =>
    exact .of_pair (halves leading rfl).2 trails (inductionHypothesis nofun)
  | case8 leading first second rest unit notTrailing leadsNext inductionHypothesis =>
    obtain ⟨small, leads⟩ := halves leading rfl
    have later := inductionHypothesis (one (unitOf_lt ..) leadsNext)
    exact .of_alone small leads notTrailing (.of_leading leadsNext later)
  | case9 leading first second rest unit notTrailing notLeading inductionHypothesis =>
    obtain ⟨small, leads⟩ := halves leading rfl
    exact .of_alone small leads notTrailing
      (.of_single notLeading notTrailing (inductionHypothesis nofun))

/-- Lenient reading of units does this and nothing else. -/
theorem replacesUnits_iff {bytes : List UInt8} {chars : List Char} :
    ReplacesUnits greaterFirst bytes chars ↔ decodeUnits greaterFirst none bytes = chars := by
  refine ⟨fun replaces => ?_, fun read => read ▸ ?_⟩
  · induction replaces with
    | done => rfl
    | char char later inductionHypothesis =>
      rw [decodeUnits_char, inductionHypothesis]
    | second small trails later inductionHypothesis =>
      rw [decodeUnits_of_trailing greaterFirst _ small trails, inductionHypothesis]
    | first small leads nextSmall notTrailing later inductionHypothesis =>
      rw [decodeUnits_of_leading greaterFirst _ small leads,
        decodeUnits_of_alone greaterFirst _ _ nextSmall notTrailing, inductionHypothesis]
    | @cutOff unit small leads last few =>
      rw [decodeUnits_of_leading greaterFirst last small leads]
      match last, few with
      | [], _ => rfl
      | [_], _ => rfl
    | odd byte => rfl
  · exact replacesUnits_of_half greaterFirst none bytes nofun

/-- A text in units of two bytes is read as this text. -/
theorem decodeUnits_encodeUnits (chars : List Char) :
    decodeUnits greaterFirst none (chars.flatMap (encodeUnits greaterFirst)) = chars := by
  induction chars with
  | nil => rfl
  | cons char chars inductionHypothesis =>
    rw [List.flatMap_cons, decodeUnits_char, inductionHypothesis]

end SecretRenewal.Text
