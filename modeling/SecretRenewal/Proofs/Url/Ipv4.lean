/-
This file proves that an address of four bytes is written as a text that is read as this address: as
four numbers in base ten, each without zeros in front, so that none is taken for one in another
base.
-/
import SecretRenewal.Proofs.Text.Numbers

namespace SecretRenewal.Url

open Text

/-! ### Addresses of four bytes -/

/-- A number is read from its decimal digits. -/
theorem ipv4Number?_toDigits (value : Nat) : ipv4Number? (Nat.toDigits 10 value) = some value := by
  have number := numberIn?_toDigits (by decide : 1 < 10) (by decide) value
  by_cases zero : value = 0
  · subst zero
    rfl
  · unfold ipv4Number?
    split
    · rename_i none
      exact absurd none Nat.toDigits_ne_nil
    · rename_i digits
      exact absurd (eq_zero_of_toDigits digits) zero
    · rename_i digits
      exact absurd (eq_zero_of_toDigits digits) zero
    · rename_i digits
      exact absurd (eq_zero_of_toDigits digits) zero
    · exact number

/-- The four bytes of an address. -/
def bytesOf (address : Nat) : List Nat :=
  [24, 16, 8, 0].map fun shift => address / Nat.pow 2 shift % 256

theorem ipv4Text_toList (address : Nat) : (ipv4Text address).toList =
    ['.'].intercalate ((bytesOf address).map (Nat.toDigits 10)) := by
  unfold ipv4Text bytesOf
  rw [String.toList_intercalate, List.map_map, List.map_map]
  refine congrArg (List.intercalate ['.']) (List.map_congr_left fun shift _ => ?_)
  exact Nat.toList_repr

theorem dottedPieces_ipv4Text (address : Nat) :
    dottedPieces (ipv4Text address).toList = (bytesOf address).map (Nat.toDigits 10) := by
  have cut : pieces (· == '.') (ipv4Text address).toList =
      (bytesOf address).map (Nat.toDigits 10) := by
    rw [ipv4Text_toList]
    show pieces (· == '.') (['.'].intercalate (_ :: _)) = _
    rw [intercalate_eq_marked]
    refine pieces_marked rfl ?_
    have noDot (value : Nat) : ∀ char ∈ Nat.toDigits 10 value, (char == '.') = false := by
      intro char member
      obtain ⟨digit, small, rfl⟩ := exists_digit_of_mem (by decide) member
      have all : ∀ digit < 10, (Nat.digitChar digit == '.') = false := by decide
      exact all digit small
    intro piece member
    have isByte : piece ∈ (bytesOf address).map (Nat.toDigits 10) := member
    obtain ⟨byte, -, rfl⟩ := List.mem_map.mp isByte
    exact noDot byte
  unfold dottedPieces
  rw [cut]
  refine if_neg fun more => ?_
  have last : some (Nat.toDigits 10 (address / Nat.pow 2 0 % 256)) = some [] := more.2
  exact Nat.toDigits_ne_nil (Option.some.inj last)

/-- The text of an address ends in a number, so it is no name. -/
theorem endsInNumber_ipv4Text (address : Nat) :
    endsInNumber (ipv4Text address).toList = true := by
  unfold endsInNumber
  rw [dottedPieces_ipv4Text]
  show ((_ && _) || (ipv4Number? (Nat.toDigits 10 (address / Nat.pow 2 0 % 256))).isSome) = true
  rw [ipv4Number?_toDigits, Option.isSome_some, Bool.or_true]

/-- An address is read from its own text. -/
theorem ipv4?_ipv4Text {address : Nat} (small : address < Nat.pow 2 32) :
    ipv4? (ipv4Text address).toList = some address := by
  obtain ⟨first, second, third, fourth, isBytes, firstSmall, secondSmall, thirdSmall, fourthSmall,
      sum⟩ : ∃ first second third fourth, bytesOf address = [first, second, third, fourth] ∧
        first < 256 ∧ second < 256 ∧ third < 256 ∧ fourth < 256 ∧
          ((first * 256 + second) * 256 + third) * 256 + fourth = address := by
    have isSmall : address < 4294967296 := small
    refine ⟨address / 16777216 % 256, address / 65536 % 256, address / 256 % 256,
      address / 1 % 256, rfl, ?_⟩
    omega
  have numbers := mapM_map_eq_some fun value (_ : value ∈ bytesOf address) =>
    ipv4Number?_toDigits value
  unfold ipv4?
  rw [dottedPieces_ipv4Text, numbers, isBytes]
  show (if 4 > 4 ∨ [first, second, third].any (255 < ·) = true ∨ Nat.pow 256 1 ≤ fourth then none
    else some ([first, second, third].foldl (fun value byte => value * 256 + byte) 0 *
      Nat.pow 256 1 + fourth)) = some address
  have fits : ¬(4 > 4 ∨ [first, second, third].any (255 < ·) = true ∨
      Nat.pow 256 1 ≤ fourth) := by
    simp
    omega
  refine (if_neg fits).trans ?_
  rw [← sum]
  simp

theorem address_lt {leading : List Nat} {last : Nat} (short : leading.length ≤ 3)
    (bytes : ∀ byte ∈ leading, byte ≤ 255) (lastSmall : last < Nat.pow 256 (4 - leading.length)) :
    leading.foldl (fun value byte => value * 256 + byte) 0 * Nat.pow 256 (4 - leading.length) +
      last < Nat.pow 2 32 := by
  have limit : Nat.pow 2 32 = 4294967296 := rfl
  match leading, short with
  | [], _ =>
    have room : Nat.pow 256 (4 - 0) = 4294967296 := rfl
    simp only [List.length_nil, List.foldl_nil, room] at lastSmall ⊢
    omega
  | [first], _ =>
    have room : Nat.pow 256 (4 - 1) = 16777216 := rfl
    simp only [List.length_cons, List.length_nil, List.foldl_cons, List.foldl_nil, room,
      List.forall_mem_singleton] at bytes lastSmall ⊢
    omega
  | [first, second], _ =>
    have room : Nat.pow 256 (4 - 2) = 65536 := rfl
    simp only [List.length_cons, List.length_nil, List.foldl_cons, List.foldl_nil, room,
      List.forall_mem_cons] at bytes lastSmall ⊢
    omega
  | [first, second, third], _ =>
    have room : Nat.pow 256 (4 - 3) = 256 := rfl
    simp only [List.length_cons, List.length_nil, List.foldl_cons, List.foldl_nil, room,
      List.forall_mem_cons] at bytes lastSmall ⊢
    omega

/-- An address that was read fits into four bytes. -/
theorem ipv4?_lt {name : List Char} {address : Nat} (isAddress : ipv4? name = some address) :
    address < Nat.pow 2 32 := by
  unfold ipv4? at isAddress
  obtain ⟨numbers, -, isAddress⟩ := Option.bind_eq_some_iff.mp isAddress
  obtain ⟨last, isLast, isAddress⟩ := Option.bind_eq_some_iff.mp isAddress
  dsimp only at isAddress
  split at isAddress
  · cases isAddress
  · rename_i fits
    obtain ⟨short, bytes, lastSmall⟩ : ¬numbers.length > 4 ∧ _ ∧ _ := by
      simpa only [not_or] using fits
    cases isAddress
    refine address_lt ?_ (fun byte member => ?_) (Nat.not_le.mp lastSmall)
    · rw [List.length_dropLast]
      omega
    · exact Nat.le_of_not_lt fun beyond =>
        bytes (List.any_eq_true.mpr ⟨byte, member, decide_eq_true beyond⟩)

end SecretRenewal.Url
