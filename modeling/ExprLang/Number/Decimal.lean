import ExprLang.Number.Binary64

/-!
# Shortest decimals

The decimal of a magnitude has the fewest digits that read back as that magnitude, and of those
decimals it is the nearest; a tie goes to the even last digit.

The search runs on grids of decimals, from the coarsest that can hold a digit of the magnitude to ever
finer ones.  Grid `j` has step `10 ^ (j - gridOffset)`, where the offset is more than any magnitude
needs.  All quantities are counted in fine units, a quarter of a unit divided by `10 ^ gridOffset`, in
which magnitudes, the bounds of the interval that rounds to one, and the points of all grids are natural
numbers.
-/

namespace ExprLang

/-- The finest grid has step `10 ^ (-gridOffset)`. -/
abbrev gridOffset : Nat := 400

namespace Magnitude

/-- A magnitude in fine units. -/
def fine (m : Magnitude) : Nat := 4 * m.units * Nat.pow 10 gridOffset

/-- How far above a magnitude the numbers reach that round to it, in fine units. -/
def above (m : Magnitude) : Nat := 2 * Nat.pow 2 m.shift * Nat.pow 10 gridOffset

/-- How far below a magnitude the numbers reach that round to it, in fine units.  Below the least
mantissa of a shift the magnitudes lie twice as close. -/
def below (m : Magnitude) : Nat :=
  if m.mantissa = Nat.pow 2 (mantissaBits - 1) ∧ 0 < m.shift then
    Nat.pow 2 m.shift * Nat.pow 10 gridOffset
  else m.above

/-- Whether a number of fine units rounds to a magnitude. -/
def roundsFrom (m : Magnitude) (x : Nat) : Bool :=
  if m.mantissa % 2 = 0 then m.fine ≤ x + m.below && x ≤ m.fine + m.above
  else m.fine < x + m.below && x < m.fine + m.above

/-- The step of grid `j` in fine units. -/
def gridStep (j : Nat) : Nat := Nat.pow 10 j * Nat.pow 2 (unitBits + 2)

/-- The multiple of the step of grid `j` that rounds to a magnitude, the nearer one if both neighbours
do. -/
def onGrid? (m : Magnitude) (j : Nat) : Option Nat :=
  let step := gridStep j
  let d := m.fine / step
  match m.roundsFrom (d * step), m.roundsFrom ((d + 1) * step) with
  | true, true => some (roundDiv m.fine step)
  | true, false => some d
  | false, true => some (d + 1)
  | false, false => none

/-- The first multiple found on the grids from `j` down, and its grid. -/
def searchGrids (m : Magnitude) : Nat → Nat × Nat
  | 0 => (roundDiv m.fine (gridStep 0), 0)
  | j + 1 =>
    match m.onGrid? (j + 1) with
    | some d => (d, j + 1)
    | none => m.searchGrids j

end Magnitude

/-- The number `0.d₁d₂… * 10 ^ point`. -/
structure Decimal where
  digits : List Char
  point : Int
  deriving DecidableEq

namespace Decimal

/-- The decimal `n * 10 ^ exponent`, without zeros at the end. -/
def scaled (n : Nat) (exponent : Int) : Decimal :=
  let digits := Nat.toDigits 10 n
  ⟨(digits.reverse.dropWhile (· == '0')).reverse, digits.length + exponent⟩

/-- The power of ten of the first digit of a positive number.  The guess from its length in bits is at
most one too small for the numbers that occur here, which have less than ten thousand bits. -/
def topPower (n : Nat) : Nat :=
  let guess := n.log2 * 30102 / 100000
  if n < Nat.pow 10 (guess + 1) then guess else guess + 1

/-- The shortest decimal of a magnitude. -/
def shortest (m : Magnitude) : Decimal :=
  let top := topPower (m.fine / Magnitude.gridStep 0)
  let found := m.searchGrids top
  scaled found.1 (found.2 - gridOffset)

/-- The power of ten of the first digit. -/
def exponent (d : Decimal) : Int := d.point - 1

end Decimal

end ExprLang
