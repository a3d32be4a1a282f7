/-
This file proves that names are brought into ASCII as they have to be where that takes no tables of
characters. A name in the form that is kept comes through every step as it is, and whatever comes
out is in this form.
-/
import SecretRenewal.Proofs.Text.Utf8
import SecretRenewal.Proofs.Url.Characters
import SecretRenewal.Url.Names

namespace SecretRenewal.Url

theorem not_isIgnorable_of_le {char : Char} (ascii : char.toNat ≤ 0x7e) :
    isIgnorable char = false := by
  have above : ¬ '\ufe00' ≤ char := by
    rw [Char.le_def, UInt32.le_iff_toNat_le]
    exact Nat.not_le.mpr (Nat.lt_of_le_of_lt ascii (by decide))
  simp only [isIgnorable, above, decide_false, Bool.false_and, Bool.or_false]
  rw [Bool.eq_false_iff]
  intro listed
  have all : (['\u00ad', '\u034f', '\u200b', '\u2060', '\u2064', '\ufeff'].all fun other =>
      decide (0x7e < other.toNat)) = true := rfl
  have above := List.all_eq_true.mp all char (List.contains_iff_mem.mp listed)
  exact absurd (of_decide_eq_true above) (Nat.not_lt.mpr ascii)

theorem isKeptInName_iff {char : Char} :
    isKeptInName char = true ↔ isForbiddenInName char = false ∧ char.toLower = char := by
  simp [isKeptInName]

/-- What may stand in a name is visible. -/
theorem le_of_isKeptInName {char : Char} (kept : isKeptInName char = true) :
    char.toNat ≤ 0x7e := by
  have allowed := (isKeptInName_iff.mp kept).1
  simp only [isForbiddenInName, Bool.or_eq_false_iff] at allowed
  exact (isControl_eq_false_iff.mp allowed.1.2).2

theorem isKeptName_of_asciiName? {bytes : List UInt8} {name : List Char}
    (isName : asciiName? bytes = some name) : isKeptName name = true := by
  obtain ⟨text, -, isName⟩ := Option.bind_eq_some_iff.mp isName
  dsimp only at isName
  split at isName
  · rename_i kept
    cases isName
    exact kept
  · cases isName

/-- A name in the form that is kept is kept. -/
theorem asciiName?_of_isKeptName {name : List Char} (kept : isKeptName name = true) :
    asciiName? (name.flatMap String.utf8EncodeChar) = some name := by
  have each : ∀ char ∈ name, isKeptInName char = true :=
    List.all_eq_true.mp (Bool.and_eq_true_iff.mp kept).1
  have decoded : Text.decode? (name.flatMap String.utf8EncodeChar) =
      some (String.ofList name) := by
    have round := Text.decode?_encode (String.ofList name)
    rwa [Text.encode, String.toList_ofList] at round
  have visible : (name.filter fun char => !isIgnorable char) = name :=
    List.filter_eq_self.mpr fun char member => by
      rw [not_isIgnorable_of_le (le_of_isKeptInName (each char member))]
      rfl
  have lower : name.map Char.toLower = name :=
    (List.map_congr_left fun char member => (isKeptInName_iff.mp (each char member)).2).trans
      (List.map_id _)
  unfold asciiName?
  rw [decoded, Option.bind_some]
  dsimp only
  rw [String.toList_ofList, visible, lower, if_pos kept]

/-- Names are brought into ASCII without tables of characters. -/
@[reducible]
def asciiNames : DomainNames where
  toAscii? := asciiName?
  all_isKeptInName isName := (Bool.and_eq_true_iff.mp (isKeptName_of_asciiName? isName)).1
  toAscii?_of_toAscii? isName := asciiName?_of_isKeptName (isKeptName_of_asciiName? isName)
  toAscii?_of_all each noCode := by
    refine asciiName?_of_isKeptName (Bool.and_eq_true_iff.mpr ⟨each, ?_⟩)
    refine List.all_eq_true.mpr fun part isPart => ?_
    rw [Bool.eq_false_iff.mpr (List.any_eq_false.mp noCode part isPart)]
    rfl

end SecretRenewal.Url
