/-
This file is about the characters of written URLs. What has been escaped once holds nothing that
would be escaped again, so it is read as it stands; and since every set of escaped characters has
the control characters in it, no gap is left that reading would take out. Pieces that are put
together with a mark between them are cut at this mark again.
-/
import SecretRenewal.Url.Reader

namespace SecretRenewal

namespace Url

/-! ### Letters and digits by their codes -/

section

variable {char : Char}

theorem isUpper_iff : char.isUpper = true ↔ 65 ≤ char.toNat ∧ char.toNat ≤ 90 := by
  show decide ('A'.val ≤ char.val ∧ char.val ≤ 'Z'.val) = true ↔ _
  rw [decide_eq_true_iff, UInt32.le_iff_toNat_le, UInt32.le_iff_toNat_le]
  exact Iff.rfl

theorem isLower_iff : char.isLower = true ↔ 97 ≤ char.toNat ∧ char.toNat ≤ 122 := by
  show (decide ('a'.val ≤ char.val) && decide (char.val ≤ 'z'.val)) = true ↔ _
  rw [Bool.and_eq_true, decide_eq_true_iff, decide_eq_true_iff, UInt32.le_iff_toNat_le,
    UInt32.le_iff_toNat_le]
  exact Iff.rfl

theorem isDigit_iff : char.isDigit = true ↔ 48 ≤ char.toNat ∧ char.toNat ≤ 57 := by
  show (decide ('0'.val ≤ char.val) && decide (char.val ≤ '9'.val)) = true ↔ _
  rw [Bool.and_eq_true, decide_eq_true_iff, decide_eq_true_iff, UInt32.le_iff_toNat_le,
    UInt32.le_iff_toNat_le]
  exact Iff.rfl

theorem isAlpha_iff : char.isAlpha = true ↔
    (65 ≤ char.toNat ∧ char.toNat ≤ 90) ∨ (97 ≤ char.toNat ∧ char.toNat ≤ 122) :=
  Bool.or_eq_true_iff.trans (or_congr isUpper_iff isLower_iff)

theorem isAlphanum_iff : char.isAlphanum = true ↔
    ((65 ≤ char.toNat ∧ char.toNat ≤ 90) ∨ (97 ≤ char.toNat ∧ char.toNat ≤ 122)) ∨
      (48 ≤ char.toNat ∧ char.toNat ≤ 57) :=
  Bool.or_eq_true_iff.trans (or_congr isAlpha_iff isDigit_iff)

theorem isSchemeChar_iff : isSchemeChar char = true ↔
    char.isAlphanum = true ∨ char.toNat = 43 ∨ char.toNat = 45 ∨ char.toNat = 46 := by
  simp [isSchemeChar, ← Char.toNat_inj, or_assoc]

/-- What is no control character here is visible ASCII or a space. -/
theorem isControl_eq_false_iff :
    isControl char = false ↔ 0x20 ≤ char.toNat ∧ char.toNat ≤ 0x7e := by
  simp only [isControl, Bool.or_eq_false_iff, decide_eq_false_iff_not, Char.lt_def,
    UInt32.lt_iff_toNat_lt, Nat.not_lt]
  exact Iff.rfl

/-- Only control characters are left out where a URL is read. -/
theorem not_isGap_of_le (visible : 0x20 ≤ char.toNat) : isGap char = false := by
  simp only [isGap, Bool.or_eq_false_iff, beq_eq_false_iff_ne]
  exact ⟨⟨fun same => absurd (same ▸ visible) (by decide),
    fun same => absurd (same ▸ visible) (by decide)⟩,
    fun same => absurd (same ▸ visible) (by decide)⟩

theorem toNat_toLower : char.toLower.toNat =
    if char.isUpper = true then char.toNat + 32 else char.toNat := by
  unfold Char.toLower
  split
  · rename_i range
    have upper : char.isUpper = true := decide_eq_true range
    rw [if_pos upper]
    have bound := (isUpper_iff.mp upper).2
    show (char.val + ('a'.val - 'A'.val)).toNat = char.val.toNat + 32
    rw [UInt32.toNat_add]
    exact Nat.mod_eq_of_lt (show char.toNat + 32 < 4294967296 by omega)
  · rename_i outside
    have notUpper : ¬char.isUpper = true := fun upper => outside (of_decide_eq_true upper)
    rw [if_neg notUpper]

/-- Lower case stays as it is. -/
theorem toLower_toLower (char : Char) : char.toLower.toLower = char.toLower := by
  refine Char.toNat_inj.mp ?_
  rw [toNat_toLower, if_neg]
  rw [isUpper_iff, toNat_toLower]
  split
  · rename_i upper
    have range := isUpper_iff.mp upper
    omega
  · rename_i notUpper
    rwa [isUpper_iff] at notUpper

theorem isAlpha_toLower (letter : char.isAlpha = true) : char.toLower.isAlpha = true := by
  rw [isAlpha_iff] at letter ⊢
  rw [toNat_toLower]
  split
  · rename_i upper
    have range := isUpper_iff.mp upper
    omega
  · exact letter

theorem isSchemeChar_toLower (mayStand : isSchemeChar char = true) :
    isSchemeChar char.toLower = true := by
  rw [isSchemeChar_iff, isAlphanum_iff] at mayStand ⊢
  rw [toNat_toLower]
  split
  · rename_i upper
    have range := isUpper_iff.mp upper
    omega
  · exact mayStand

/-- A character outside of a class is none that is inside. -/
theorem ne_of_outside {isInside : Char → Bool} {other : Char} (outside : isInside char = false)
    (inside : isInside other = true) : char ≠ other := by
  rintro rfl
  rw [outside] at inside
  cases inside

/-- What is seen to hold of each code below 128 holds of every character that has one. -/
theorem of_ascii {motive : Char → Prop} (ascii : char.toNat < 128)
    (each : ∀ code < 128, motive (Char.ofNat code)) : motive char :=
  Char.ofNat_toNat char ▸ each char.toNat ascii

end

/-- Characters without gaps all count. -/
theorem solid_eq {chars : List Char} (noGap : ∀ char ∈ chars, isGap char = false) :
    solid chars = chars :=
  List.filter_eq_self.mpr fun char member => by rw [noGap char member]; rfl

/-- Characters up to one that ends them are cut off there. -/
theorem cut_at {stays : Char → Bool} {front rest : List Char}
    (inside : ∀ char ∈ front, stays char = true) (ends : ∀ char ∈ rest.head?, stays char = false) :
    (front ++ rest).takeWhile stays = front ∧ (front ++ rest).dropWhile stays = rest := by
  rw [List.takeWhile_append_of_pos inside, List.dropWhile_append_of_pos inside]
  cases rest with
  | nil => exact ⟨List.append_nil _, rfl⟩
  | cons char rest =>
    have stops : ¬stays char = true := by rw [ends char rfl]; exact nofun
    rw [List.takeWhile_cons_of_neg stops, List.dropWhile_cons_of_neg stops, List.append_nil]
    exact ⟨rfl, rfl⟩

/-! ### Escaping once -/

/-- The sign in front of an escaped byte and the digits after it stand for themselves. -/
def IsSound (isEscaped : Char → Bool) : Prop :=
  isEscaped '%' = false ∧ ∀ value < 16, isEscaped (hexDigit value) = false

section

variable {isEscaped : Char → Bool} {chars : List Char}

/-- Nothing is escaped where nothing has to be. -/
theorem escape_of_none (plain : ∀ char ∈ chars, isEscaped char = false) :
    escape isEscaped chars = String.ofList chars := by
  unfold escape
  refine congrArg String.ofList ?_
  induction chars with
  | nil => rfl
  | cons char chars inductionHypothesis =>
    obtain ⟨first, others⟩ := List.forall_mem_cons.mp plain
    rw [List.flatMap_cons, first, inductionHypothesis others]
    rfl

theorem escape_toList {text : String} (plain : ∀ char ∈ text.toList, isEscaped char = false) :
    escape isEscaped text.toList = text := by
  rw [escape_of_none plain, String.ofList_toList]

/-- A written character is one of those that were there and stand for themselves, or it belongs to
an escaped byte. -/
theorem forall_mem_escape {holds : Char → Prop} (mark : holds '%')
    (digits : ∀ value < 16, holds (hexDigit value))
    (kept : ∀ char ∈ chars, isEscaped char = false → holds char) :
    ∀ char ∈ (escape isEscaped chars).toList, holds char := by
  intro char member
  unfold escape at member
  rw [String.toList_ofList, List.mem_flatMap] at member
  obtain ⟨written, inside, member⟩ := member
  cases escaped : isEscaped written with
  | false =>
    rw [escaped] at member
    rw [List.mem_singleton.mp member]
    exact kept written inside escaped
  | true =>
    rw [escaped] at member
    obtain ⟨byte, -, member⟩ := List.mem_flatMap.mp member
    have small := byte.toNat_lt
    simp only [escapeByte, List.mem_cons, List.not_mem_nil, or_false] at member
    rcases member with rfl | rfl | rfl
    · exact mark
    · exact digits _ (by omega)
    · exact digits _ (by omega)

/-- What is escaped needs no escaping again. -/
theorem not_escaped_of_mem (sound : IsSound isEscaped) {char : Char}
    (member : char ∈ (escape isEscaped chars).toList) : isEscaped char = false :=
  forall_mem_escape sound.1 sound.2 (fun _ _ kept => kept) char member

end

theorem isSound_isControl : IsSound isControl := ⟨rfl, by decide⟩

theorem isSound_escapedInFragment : IsSound escapedInFragment := ⟨rfl, by decide⟩

theorem isSound_escapedInQuery (special : Bool) : IsSound (escapedInQuery special) := by
  cases special <;> exact ⟨rfl, by decide⟩

theorem isSound_escapedInUserInfo : IsSound escapedInUserInfo := ⟨rfl, by decide⟩

theorem not_isControl_of_path {char : Char} (plain : escapedInPath char = false) :
    isControl char = false := by
  simp only [escapedInPath, escapedInFragment, Bool.or_eq_false_iff] at plain
  exact plain.1.1

theorem not_isControl_of_userInfo {char : Char} (plain : escapedInUserInfo char = false) :
    isControl char = false := by
  simp only [escapedInUserInfo, Bool.or_eq_false_iff] at plain
  exact not_isControl_of_path plain.1

theorem not_isControl_of_fragment {char : Char} (plain : escapedInFragment char = false) :
    isControl char = false := by
  simp only [escapedInFragment, Bool.or_eq_false_iff] at plain
  exact plain.1

/-- A query as it is kept has no control characters. -/
theorem not_isControl_of_query {special : Bool} {char : Char}
    (plain : escapedInQuery special char = false) : isControl char = false := by
  simp only [escapedInQuery, Bool.or_eq_false_iff] at plain
  exact plain.1.1

theorem not_isGap_of_not_isControl {char : Char} (visible : isControl char = false) :
    isGap char = false :=
  not_isGap_of_le (isControl_eq_false_iff.mp visible).1

end Url

namespace Text

/-! ### Pieces put together -/

/-- The pieces with a mark in front of each. -/
def marked (mark : Char) (pieces : List (List Char)) : List Char :=
  pieces.flatMap (mark :: ·)

theorem intercalate_eq_marked (mark : Char) (first : List Char) (rest : List (List Char)) :
    [mark].intercalate (first :: rest) = first ++ marked mark rest := by
  induction rest generalizing first with
  | nil => simp [List.intercalate, marked]
  | cons second rest inductionHypothesis =>
    have next := inductionHypothesis second
    simp only [List.intercalate, List.intersperse, List.flatten_cons, marked,
      List.flatMap_cons] at next ⊢
    rw [next]
    rfl

/-- Pieces without separators are cut apart at the marks between them. -/
theorem pieces_marked {isSeparator : Char → Bool} {mark : Char} (isMark : isSeparator mark = true)
    {first : List Char} {rest : List (List Char)}
    (apart : ∀ piece ∈ first :: rest, ∀ char ∈ piece, isSeparator char = false) :
    pieces isSeparator (first ++ marked mark rest) = first :: rest := by
  induction rest generalizing first with
  | nil =>
    obtain ⟨inFirst, -⟩ := List.forall_mem_cons.mp apart
    rw [marked, List.flatMap_nil, List.append_nil]
    induction first with
    | nil => rfl
    | cons char first inductionHypothesis =>
      obtain ⟨here, later⟩ := List.forall_mem_cons.mp inFirst
      rw [pieces, here, inductionHypothesis (List.forall_mem_singleton.mpr later) later]
      rfl
  | cons second rest inductionHypothesis =>
    obtain ⟨inFirst, others⟩ := List.forall_mem_cons.mp apart
    have cut := inductionHypothesis others
    clear inductionHypothesis
    induction first with
    | nil =>
      rw [List.nil_append, marked, List.flatMap_cons, List.cons_append, pieces, if_pos isMark]
      exact congrArg ([] :: ·) cut
    | cons char first inductionHypothesis =>
      obtain ⟨here, later⟩ := List.forall_mem_cons.mp inFirst
      rw [List.cons_append, pieces, here,
        inductionHypothesis (List.forall_mem_cons.mpr ⟨later, others⟩) later]
      rfl

end Text

end SecretRenewal
