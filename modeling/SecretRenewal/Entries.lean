/-
This file holds association lists kept in ascending order of their keys, the order that every
listing of keys in this library has. Setting a key puts its value in place, or replaces the one
it had, so a list built by setting alone is ascending and looks up what was set last.
-/

namespace SecretRenewal

/-- Keys with values. -/
abbrev Entries (value : Type) := List (String × value)

namespace Entries

variable {value : Type}

/-- Keys stand in strictly ascending order. -/
def Ascending (entries : Entries value) : Prop :=
  entries.Pairwise fun first second => first.1 < second.1

/-- The value of a key. -/
def get? : Entries value → String → Option value
  | [], _ => none
  | (known, held) :: rest, key => if known = key then some held else get? rest key

/-- Gives a key a value, in its place. -/
def set : Entries value → String → value → Entries value
  | [], key, given => [(key, given)]
  | (known, held) :: rest, key, given =>
    if key < known then (key, given) :: (known, held) :: rest
    else if key = known then (key, given) :: rest
    else (known, held) :: set rest key given

/-- Gives keys their values one after another. -/
def setAll (entries : Entries value) (given : List (String × value)) : Entries value :=
  given.foldl (fun entries entry => entries.set entry.1 entry.2) entries

/-- Removes a key. -/
def erase (entries : Entries value) (key : String) : Entries value :=
  entries.filter fun entry => entry.1 != key

/-! ### Looking up what was set -/

/-- After setting, the key has the value and every other key what it had. -/
theorem get?_set (entries : Entries value) (key other : String) (given : value) :
    (entries.set key given).get? other =
      if key = other then some given else entries.get? other := by
  induction entries with
  | nil => rfl
  | cons entry rest inductionHypothesis =>
    obtain ⟨known, held⟩ := entry
    unfold set
    by_cases before : key < known
    · rw [if_pos before]
      rfl
    · rw [if_neg before]
      by_cases same : key = known
      · subst same
        rw [if_pos rfl]
        by_cases asked : key = other
        · simp [get?, asked]
        · simp [get?, asked]
      · rw [if_neg same]
        by_cases asked : known = other
        · subst asked
          simp [get?, same]
        · simp [get?, asked, inductionHypothesis]

/-- The keys after setting are the key and those there were. -/
theorem mem_keys_set (entries : Entries value) (key other : String) (given : value) :
    other ∈ (entries.set key given).map Prod.fst ↔
      other = key ∨ other ∈ entries.map Prod.fst := by
  induction entries with
  | nil => simp [set]
  | cons entry rest inductionHypothesis =>
    obtain ⟨known, held⟩ := entry
    unfold set
    by_cases before : key < known
    · simp [before]
    · by_cases same : key = known
      · subst same
        rw [if_neg before, if_pos rfl]
        simp
      · simp only [before, same, if_false, List.map_cons, List.mem_cons, inductionHypothesis]
        constructor
        · rintro (found | found | found)
          · exact Or.inr (Or.inl found)
          · exact Or.inl found
          · exact Or.inr (Or.inr found)
        · rintro (found | found | found)
          · exact Or.inr (Or.inl found)
          · exact Or.inl found
          · exact Or.inr (Or.inr found)

/-- Setting keeps the order. -/
theorem Ascending.set {entries : Entries value} (ascending : entries.Ascending) (key : String)
    (given : value) : (entries.set key given).Ascending := by
  induction entries with
  | nil => exact List.pairwise_singleton _ _
  | cons entry rest inductionHypothesis =>
    obtain ⟨known, held⟩ := entry
    obtain ⟨least, restAscending⟩ := List.pairwise_cons.mp ascending
    unfold Entries.set
    by_cases before : key < known
    · rw [if_pos before]
      refine List.pairwise_cons.mpr ⟨fun later member => ?_, ascending⟩
      rcases List.mem_cons.mp member with rfl | member
      · exact before
      · exact String.lt_trans before (least later member)
    · rw [if_neg before]
      by_cases same : key = known
      · subst same
        rw [if_pos rfl]
        exact List.pairwise_cons.mpr ⟨least, restAscending⟩
      · rw [if_neg same]
        refine List.pairwise_cons.mpr ⟨fun later member => ?_, inductionHypothesis restAscending⟩
        have keyOf : later.1 ∈ (Entries.set rest key given).map Prod.fst :=
          List.mem_map_of_mem member
        rcases (mem_keys_set rest key later.1 given).mp keyOf with isKey | inRest
        · rw [isKey]
          exact Decidable.byContradiction fun notAfter =>
            same (String.le_antisymm (String.not_lt.mp notAfter) (String.not_lt.mp before))
        · obtain ⟨found, foundMember, foundKey⟩ := List.mem_map.mp inRest
          exact foundKey ▸ least found foundMember

end Entries

end SecretRenewal
