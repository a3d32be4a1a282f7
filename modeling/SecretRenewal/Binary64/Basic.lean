/-
This file holds 64-bit binary floating-point numbers and their arithmetic. A number is kept as
its 64 bits and taken apart into an exact value: every finite number is a whole multiple of
`2 ^ (-1074)`, the smallest positive one, so a finite magnitude is that multiple, a natural
number. An operation computes its exact result as a quotient of natural numbers and rounds it
once, to the nearest number, a tie to the even one.
-/

namespace SecretRenewal

/-- A 64-bit binary floating-point number, as its bits. -/
structure Binary64 where
  /-- The sign, eleven bits of exponent and fifty-two of fraction. -/
  bits : UInt64
  deriving DecidableEq

namespace Binary64

/-- What the bits of a number stand for. -/
inductive Datum
  /-- No number. -/
  | nan
  /-- Beyond every finite number. -/
  | infinite (negative : Bool)
  /-- So many times `2 ^ (-1074)`. -/
  | finite (negative : Bool) (units : Nat)
  deriving DecidableEq

/-! ### Bits and values -/

/-- Units in the number one. -/
def oneUnits : Nat := Nat.pow 2 1074

/-- The first magnitude, in units, that is too large for a finite number. -/
def limitUnits : Nat := Nat.pow 2 2098

/-- The value that bits stand for. -/
def datum (number : Binary64) : Datum :=
  let word := number.bits.toNat
  let exponent := word / Nat.pow 2 52 % Nat.pow 2 11
  let fraction := word % Nat.pow 2 52
  let negative := decide (Nat.pow 2 63 ≤ word)
  if exponent = 2047 then
    if fraction = 0 then .infinite negative else .nan
  else if exponent = 0 then
    .finite negative fraction
  else
    .finite negative ((Nat.pow 2 52 + fraction) * Nat.pow 2 (exponent - 1))

/-- How far the last of fifty-three bits of a magnitude lies above one unit. -/
def scaleOf (units : Nat) : Nat := if units < Nat.pow 2 53 then 0 else units.log2 - 52

namespace Datum

/-- The word of the sign. -/
def signWord (negative : Bool) : Nat := if negative then Nat.pow 2 63 else 0

/-- The exponent and fraction of a magnitude that fifty-three bits hold. -/
def magnitudeWord (units : Nat) : Nat :=
  if units < Nat.pow 2 52 then units
  else (scaleOf units + 1) * Nat.pow 2 52 + (units / Nat.pow 2 (scaleOf units) - Nat.pow 2 52)

/-- The bits of a value. -/
def toBinary64 : Datum → Binary64
  | .nan => ⟨UInt64.ofNat (2047 * Nat.pow 2 52 + Nat.pow 2 51)⟩
  | .infinite negative => ⟨UInt64.ofNat (signWord negative + 2047 * Nat.pow 2 52)⟩
  | .finite negative units => ⟨UInt64.ofNat (signWord negative + magnitudeWord units)⟩

end Datum

/-! ### Rounding -/

/-- A quotient rounded to the nearest natural number, a tie to the even one. -/
def roundHalfEven (numerator denominator : Nat) : Nat :=
  let whole := numerator / denominator
  let rest := numerator % denominator
  if 2 * rest < denominator then whole
  else if denominator < 2 * rest then whole + 1
  else if whole % 2 = 0 then whole else whole + 1

/-- A quotient of units rounded to fifty-three bits. -/
def roundUnits (numerator denominator : Nat) : Nat :=
  let scale := Nat.pow 2 (scaleOf (numerator / denominator))
  roundHalfEven numerator (denominator * scale) * scale

/-- The number nearest to a quotient of units; too large a magnitude is infinite. -/
def nearest (negative : Bool) (numerator denominator : Nat) : Datum :=
  let units := roundUnits numerator denominator
  if units < limitUnits then .finite negative units else .infinite negative

namespace Datum

/-! ### Arithmetic -/

/-- Zero. -/
def zero : Datum := .finite false 0

/-- One. -/
def one : Datum := .finite false oneUnits

/-- The distance from one to the next larger number. -/
def epsilon : Datum := .finite false (Nat.pow 2 1022)

/-- The number nearest to a natural number. -/
def ofNat (value : Nat) : Datum := nearest false (value * oneUnits) 1

/-- The same magnitude with the other sign. -/
def neg : Datum → Datum
  | .nan => .nan
  | .infinite negative => .infinite !negative
  | .finite negative units => .finite (!negative) units

/-- The magnitude alone. -/
def abs : Datum → Datum
  | .nan => .nan
  | .infinite _ => .infinite false
  | .finite _ units => .finite false units

/-- The product, rounded. -/
def mul : Datum → Datum → Datum
  | .nan, _ => .nan
  | _, .nan => .nan
  | .infinite first, .infinite second => .infinite (first != second)
  | .infinite first, .finite second units =>
    if units = 0 then .nan else .infinite (first != second)
  | .finite first units, .infinite second =>
    if units = 0 then .nan else .infinite (first != second)
  | .finite first firstUnits, .finite second secondUnits =>
    nearest (first != second) (firstUnits * secondUnits) oneUnits

/-- The quotient, rounded. -/
def div : Datum → Datum → Datum
  | .nan, _ => .nan
  | _, .nan => .nan
  | .infinite _, .infinite _ => .nan
  | .infinite first, .finite second _ => .infinite (first != second)
  | .finite first _, .infinite second => .finite (first != second) 0
  | .finite first firstUnits, .finite second secondUnits =>
    if secondUnits = 0 then
      if firstUnits = 0 then .nan else .infinite (first != second)
    else nearest (first != second) (firstUnits * oneUnits) secondUnits

/-- The sum, rounded. Opposite numbers add up to the positive zero. -/
def add : Datum → Datum → Datum
  | .nan, _ => .nan
  | _, .nan => .nan
  | .infinite first, .infinite second => if first = second then .infinite first else .nan
  | .infinite first, .finite _ _ => .infinite first
  | .finite _ _, .infinite second => .infinite second
  | .finite first firstUnits, .finite second secondUnits =>
    if first = second then nearest first (firstUnits + secondUnits) 1
    else if secondUnits < firstUnits then nearest first (firstUnits - secondUnits) 1
    else if firstUnits < secondUnits then nearest second (secondUnits - firstUnits) 1
    else zero

/-- The difference, rounded. -/
def sub (first second : Datum) : Datum := first.add second.neg

/-- Whether a number is smaller than another; never so for what is no number, and the two zeros
are equal. -/
def lt : Datum → Datum → Bool
  | .nan, _ => false
  | _, .nan => false
  | .infinite first, .infinite second => first && !second
  | .infinite first, .finite _ _ => first
  | .finite _ _, .infinite second => !second
  | .finite false first, .finite false second => decide (first < second)
  | .finite true first, .finite true second => decide (second < first)
  | .finite true first, .finite false second => decide (0 < first + second)
  | .finite false _, .finite true _ => false

/-- Whether two numbers are equal as numbers: the two zeros are, and what is no number equals
nothing. -/
def sameNumber : Datum → Datum → Bool
  | .nan, _ => false
  | _, .nan => false
  | .infinite first, .infinite second => first == second
  | .infinite _, .finite _ _ => false
  | .finite _ _, .infinite _ => false
  | .finite first firstUnits, .finite second secondUnits =>
    firstUnits == secondUnits && (first == second || firstUnits == 0)

/-! ### Powers -/

/-- Multiplies `product` by the powers `base`, `base ^ 2`, `base ^ 4`, … that the binary digits
of the exponent select, the lowest digit first. Each of the `digits` digits costs at most two
rounded products. -/
def powerFrom (digits : Nat) (product base : Datum) (exponent : Nat) : Datum :=
  match digits with
  | 0 => product
  | digits + 1 =>
    let product := if exponent % 2 = 1 then product.mul base else product
    if exponent / 2 = 0 then product
    else powerFrom digits product (base.mul base) (exponent / 2)

/-- A power by repeated squaring, every product rounded. -/
def power (base : Datum) (exponent : Nat) : Datum :=
  powerFrom (exponent.log2 + 1) one base exponent

end Datum

end Binary64

end SecretRenewal
