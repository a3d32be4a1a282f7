/-
This file is about results, which are a value or say what is wrong. What is made of a result is made
of its value, and to know the value is to know the result; the kernel compares values only, as what
is wrong need not be comparable.
-/

namespace SecretRenewal

variable {problem value other : Type} {result : Except problem value}

theorem value_of_bind {next : value → Except problem other} {made : other}
    (isMade : (result >>= next) = .ok made) : ∃ held, result = .ok held ∧ next held = .ok made := by
  cases result with
  | error problem => cases isMade
  | ok held => exact ⟨held, rfl, isMade⟩

theorem toOption_eq_some_iff {given : value} :
    result.toOption = some given ↔ result = .ok given := by
  cases result <;> simp [Except.toOption]

end SecretRenewal
