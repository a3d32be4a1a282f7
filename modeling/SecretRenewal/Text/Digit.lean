/-
This file reads whole numbers written in digits of some base. The digits of the larger bases are
letters of either case; a sign or a blank is no digit.
-/

namespace SecretRenewal.Text

/-- What a character counts as a digit, if it is one: digits, then letters of either case. -/
def digitValue? (char : Char) : Option Nat :=
  if '0' ≤ char ∧ char ≤ '9' then some (char.toNat - '0'.toNat)
  else if 'a' ≤ char ∧ char ≤ 'z' then some (char.toNat - 'a'.toNat + 10)
  else if 'A' ≤ char ∧ char ≤ 'Z' then some (char.toNat - 'A'.toNat + 10)
  else none

/-- The value of a digit in a base. -/
def digitIn? (base : Nat) (char : Char) : Option Nat :=
  (digitValue? char).filter (decide <| · < base)

/-- The number that digits in a base write, if all of them are such digits. -/
def numberIn? (base : Nat) (digits : List Char) : Option Nat :=
  digits.foldlM (fun value digit => (digitIn? base digit).map (value * base + ·)) 0

/-- A digit in a base is smaller than the base. -/
theorem digitIn?_lt {base value : Nat} {char : Char} (isDigit : digitIn? base char = some value) :
    value < base := by
  simpa using (Option.filter_eq_some_iff.mp isDigit).2

end SecretRenewal.Text
