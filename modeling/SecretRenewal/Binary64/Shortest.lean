/-
This file writes a floating-point number with the fewest decimal digits that no other number
is nearer to. The numbers that round to a given one fill an interval around it; on the grid of
so many digits only the two points next to the number can lie in that interval, so the first
grid on which one of them does has the fewest digits, and of two such points the nearer is
taken.
-/
import SecretRenewal.Binary64.Basic

namespace SecretRenewal.Binary64

/-- A decimal number: its digits as one number, times a power of ten. -/
structure Decimal where
  /-- The digits. -/
  digits : Nat
  /-- The power of ten they are multiplied by. -/
  exponent : Int
  deriving DecidableEq

/-- The magnitude in quarters of a unit, and the ends of the interval of magnitudes that round
to it; below a power of two the interval is half as wide. -/
structure Neighbourhood where
  /-- The magnitude. -/
  centre : Nat
  /-- The lower end. -/
  lower : Nat
  /-- The upper end. -/
  upper : Nat
  /-- Whether the ends themselves round to the magnitude. -/
  closed : Bool

/-- The neighbourhood of a positive magnitude in units. -/
def neighbourhood (units : Nat) : Neighbourhood :=
  let scale := Nat.pow 2 (scaleOf units)
  let significand := units / scale
  let narrow := significand = Nat.pow 2 52 ∧ 1 < scale
  { centre := 4 * units
    lower := 4 * units - if narrow then scale else 2 * scale
    upper := 4 * units + 2 * scale
    closed := significand % 2 = 0 }

/-- Whether the quotient lies among the magnitudes, in quarters of a unit, that round to the
centre. -/
def Neighbourhood.contains (place : Neighbourhood) (numerator denominator : Nat) : Bool :=
  if place.closed then
    decide (place.lower * denominator ≤ numerator ∧ numerator ≤ place.upper * denominator)
  else
    decide (place.lower * denominator < numerator ∧ numerator < place.upper * denominator)

/-- The point of the grid of powers of ten next to the centre that rounds to it, the nearer of
two, an even one of two as near. -/
def Neighbourhood.onGrid? (place : Neighbourhood) (exponent : Int) : Option Decimal :=
  let quarter := 4 * oneUnits
  -- a grid point is `digits * numerator / denominator` quarters of a unit
  let numerator := quarter * Nat.pow 10 exponent.toNat
  let denominator := Nat.pow 10 (-exponent).toNat
  let below := place.centre * denominator / numerator
  let above := below + 1
  let belowFits := place.contains (below * numerator) denominator
  let aboveFits := place.contains (above * numerator) denominator
  let toBelow := place.centre * denominator - below * numerator
  let toAbove := above * numerator - place.centre * denominator
  if belowFits && aboveFits then
    if toBelow < toAbove || (toBelow == toAbove && below % 2 == 0) then some ⟨below, exponent⟩
    else some ⟨above, exponent⟩
  else if belowFits then some ⟨below, exponent⟩
  else if aboveFits then some ⟨above, exponent⟩
  else none

/-- A power of ten that no magnitude in units reaches, as an exponent: the decimal digits of
the whole part, or how far below the point the first digit stands. -/
def leadingExponent (units : Nat) : Int :=
  let whole := units / oneUnits
  if whole = 0 then
    let shifted := units * Nat.pow 10 324 / oneUnits
    ((Nat.toDigits 10 shifted).length : Int) - 324
  else ((Nat.toDigits 10 whole).length : Int)

/-- The first grid, from coarse to fine, that has a point next to the centre. -/
def Neighbourhood.firstOnGrid (place : Neighbourhood) (grids : Nat) (exponent : Int) : Decimal :=
  match grids with
  | 0 => ⟨place.centre, exponent⟩
  | grids + 1 =>
    match place.onGrid? exponent with
    | some decimal => decimal
    | none => firstOnGrid place grids (exponent - 1)

/-- The shortest decimal number that reads back as the magnitude. -/
def shortest (units : Nat) : Decimal :=
  if units = 0 then ⟨0, 0⟩
  else (neighbourhood units).firstOnGrid 18 (leadingExponent units)

/-- Removes the zeros at the end of the digits. -/
def Decimal.trimmed (decimal : Decimal) (zeros : Nat) : Decimal :=
  match zeros with
  | 0 => decimal
  | zeros + 1 =>
    if decimal.digits % 10 = 0 ∧ decimal.digits ≠ 0 then
      Decimal.trimmed ⟨decimal.digits / 10, decimal.exponent + 1⟩ zeros
    else decimal

/-- How a decimal number is laid out. -/
structure Layout where
  /-- The greatest exponent of the leading digit that is written positionally. -/
  greatestPositional : Int
  /-- The least exponent of the leading digit that is written positionally. -/
  leastPositional : Int

/-- Numbers from a hundred-thousandth up to `10 ^ 16` are written positionally. -/
def standardLayout : Layout := ⟨15, -5⟩

/-- The exponent of a leading digit, always with its sign. -/
def exponentText (leading : Int) : List Char :=
  'e' :: (if leading < 0 then '-' else '+') :: Nat.toDigits 10 leading.natAbs

/-- A positive decimal number with a point, or with the exponent of its leading digit. -/
def Decimal.text (layout : Layout) (decimal : Decimal) : String :=
  let decimal := decimal.trimmed 20
  let digits := Nat.toDigits 10 decimal.digits
  let leading : Int := decimal.exponent + digits.length - 1
  let positional := decide (layout.leastPositional ≤ leading ∧ leading ≤ layout.greatestPositional)
  String.ofList <|
    if positional then
      if 0 ≤ decimal.exponent then
        digits ++ List.replicate decimal.exponent.toNat '0' ++ ['.', '0']
      else if 0 ≤ leading then
        digits.take (leading.toNat + 1) ++ ['.'] ++ digits.drop (leading.toNat + 1)
      else ['0', '.'] ++ List.replicate (-leading - 1).toNat '0' ++ digits
    else
      match digits with
      | [] => []
      | [digit] => digit :: exponentText leading
      | digit :: rest => digit :: '.' :: rest ++ exponentText leading

/-- A number with the fewest digits that read back as it. -/
def shortestText (number : Binary64) : String :=
  match number.datum with
  | .nan => "NaN"
  | .infinite false => "inf"
  | .infinite true => "-inf"
  | .finite negative units =>
    let magnitude := if units = 0 then "0.0" else (shortest units).text standardLayout
    if negative then "-" ++ magnitude else magnitude

end SecretRenewal.Binary64
