import ExprLang.Number.Decimal
import ExprLang.Text.Basic

/-!
# Layouts of numbers

How the digits of a decimal are written down: positionally, with the point in its place and zeros as
needed, or with one digit before the point and an exponent.  A layout says for which exponents the
first form is used and how many digits an exponent has at least.
-/

namespace ExprLang

namespace Decimal

/-- The digits with the point in its place. -/
def positional (d : Decimal) : List Char :=
  if d.point ≤ 0 then ['0', '.'] ++ List.replicate (-d.point).toNat '0' ++ d.digits
  else
    let places := d.point.toNat
    if places < d.digits.length then d.digits.take places ++ ['.'] ++ d.digits.drop places
    else d.digits ++ List.replicate (places - d.digits.length) '0'

/-- One digit before the point, and an exponent with a sign and at least `width` digits. -/
def scientific (width : Nat) (d : Decimal) : List Char :=
  let fraction := d.digits.drop 1
  let exponent := Nat.toDigits 10 d.exponent.natAbs
  d.digits.take 1 ++ (if fraction = [] then [] else '.' :: fraction) ++
    ['e', if d.exponent < 0 then '-' else '+'] ++
    List.replicate (width - exponent.length) '0' ++ exponent

end Decimal

/-- How finite numbers are written. -/
structure Layout where
  /-- Whether a number whose first digit has the given power of ten is written positionally. -/
  positional : Int → Bool
  /-- The least number of digits of an exponent. -/
  exponentWidth : Nat

namespace Layout

/-- The digits of a magnitude in a layout. -/
def digits (l : Layout) (m : Magnitude) : List Char :=
  if m.mantissa = 0 then ['0']
  else
    let d := Decimal.shortest m
    if l.positional d.exponent then d.positional else d.scientific l.exponentWidth

/-- A finite number in a layout; the sign of zero is kept. -/
def text (l : Layout) (negative : Bool) (m : Magnitude) : Text :=
  Text.ofChars ((if negative then ['-'] else []) ++ l.digits m)

end Layout

end ExprLang
