/-!
# Binary64 numbers

The numbers of the language are the binary64 floating-point numbers, with one NaN.  A finite number is
a sign and a magnitude.  Every magnitude is a whole number of units of `2 ^ (-1074)`, written as
`mantissa * 2 ^ shift` with as small a shift as a mantissa of 53 bits allows, so equal magnitudes have
equal parts and all arithmetic on them stays within the natural numbers.

`Magnitude.nearest?` rounds an exact quotient to the nearest magnitude and a tie to the one with the
even mantissa; a quotient beyond the largest magnitude has none.
-/

namespace ExprLang

/-- The quotient of two numbers rounded to the nearest whole number, ties to the even one. -/
def roundDiv (num den : Nat) : Nat :=
  let q := num / den
  let r := num % den
  if 2 * r < den || (2 * r == den && q % 2 == 0) then q else q + 1

/-- The number of bits of a mantissa. -/
abbrev mantissaBits : Nat := 53

/-- The largest shift of a mantissa. -/
abbrev maxShift : Nat := 2045

/-- The unit in which magnitudes are counted is `2 ^ (-unitBits)`. -/
abbrev unitBits : Nat := 1074

/-- The absolute value of a finite binary64 number, `mantissa * 2 ^ shift` units.  Unless the shift is
zero, the mantissa has its full number of bits. -/
structure Magnitude where
  mantissa : Nat
  shift : Nat
  canonical : mantissa < Nat.pow 2 mantissaBits ∧ shift ≤ maxShift ∧
    (shift = 0 ∨ Nat.pow 2 (mantissaBits - 1) ≤ mantissa)
  deriving DecidableEq

namespace Magnitude

/-- The magnitude of zero. -/
def zero : Magnitude := ⟨0, 0, by decide⟩

/-- The magnitude with the given parts, if they are in canonical form. -/
def ofParts? (mantissa shift : Nat) : Option Magnitude :=
  if h : mantissa < Nat.pow 2 mantissaBits ∧ shift ≤ maxShift ∧
      (shift = 0 ∨ Nat.pow 2 (mantissaBits - 1) ≤ mantissa) then
    some ⟨mantissa, shift, h⟩
  else none

/-- A magnitude as a number of units. -/
def units (m : Magnitude) : Nat := m.mantissa * Nat.pow 2 m.shift

/-- The magnitude nearest to `num / den` units.  The shift leaves as many bits of the quotient as a
mantissa has; rounding may carry into one more. -/
def nearestUnits? (num den : Nat) : Option Magnitude :=
  let shift := Nat.log2 (num / den) - (mantissaBits - 1)
  let mantissa := roundDiv num (den * Nat.pow 2 shift)
  if mantissa = Nat.pow 2 mantissaBits then ofParts? (Nat.pow 2 (mantissaBits - 1)) (shift + 1)
  else ofParts? mantissa shift

/-- The magnitude nearest to `num / den`. -/
def nearest? (num den : Nat) : Option Magnitude :=
  nearestUnits? (num * Nat.pow 2 unitBits) den

end Magnitude

/-- A binary64 number; the two zeros are different numbers. -/
inductive Binary64 where
  | nan
  | infinite (negative : Bool)
  | finite (negative : Bool) (magnitude : Magnitude)
  deriving DecidableEq

namespace Binary64

/-- Positive zero. -/
def zero : Binary64 := .finite false .zero

/-- The number nearest to `num / den` with the given sign, infinite beyond the largest finite one. -/
def nearest (negative : Bool) (num den : Nat) : Binary64 :=
  (Magnitude.nearest? num den).elim (.infinite negative) (.finite negative)

end Binary64

end ExprLang
