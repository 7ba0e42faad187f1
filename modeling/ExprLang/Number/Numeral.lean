import ExprLang.Number.Binary64
import ExprLang.Text.Ascii

/-!
# Reading numerals

A numeral is an optional sign followed by `inf`, `infinity` or digits.  Digits may have a point among
them and an exponent behind them: decimal digits and `e` with a power of ten, or `0x`, hexadecimal
digits and `p` with a power of two, which must then be given.  An underscore may stand between two
digits, or between `0x` and a digit.  `nan` takes no sign.  Letters may be of either case.

The value of a numeral is the nearest binary64 number (`Binary64.nearest`), with one exception.  A
decimal numeral is read by its first nineteen significant digits if they settle which number is nearest.
If they do not, it is read through a window of eight hundred significant digits: further digits still
take part in the rounding, but the places of the whole part that lie beyond the window are lost.  No
numeral with a whole part that fits the window is affected.

`Binary64.ofText` gives zero for a text that is no numeral.
-/

namespace ExprLang

namespace Numeral

/-- The value of a digit in lower case. -/
def digitValue (b : UInt8) : Nat :=
  if isDigit b then b.toNat - 0x30 else b.toNat - 0x57

/-- The number that a run of digits denotes. -/
def digitsValue (radix : Nat) (digits : Text) : Nat :=
  digits.foldl (fun n b => radix * n + digitValue b) 0

/-- The binary64 number nearest to `n * base ^ power`. -/
def scale (negative : Bool) (n base : Nat) : (power : Int) → Binary64
  | .ofNat e => .nearest negative (n * base.pow e) 1
  | .negSucc e => .nearest negative n (base.pow (e + 1))

/-- The digits before and behind the point, and the exponent. -/
structure Parts where
  whole : Text
  fraction : Text
  exponent : Int
  deriving DecidableEq

namespace Parts

/-- All digits. -/
def digits (p : Parts) : Text := p.whole ++ p.fraction

/-! ### The value of decimal digits -/

/-- Digits without the zeros at their front. -/
def significant (digits : Text) : Text := digits.dropWhile (· == 0x30)

/-- How many digits are tried first. -/
abbrev leadLength : Nat := 19

/-- How many digits are kept if the first ones do not settle the value. -/
abbrev windowLength : Nat := 800

/-- The power of ten of the last digit. -/
def decimalPower (p : Parts) : Int := p.exponent - p.fraction.length

/-- Whether the first digits settle the value: no digit but zero follows them, or they round to the same
number as the next higher digits would. -/
def isSettled (p : Parts) : Bool :=
  let lead := (significant p.digits).take leadLength
  let rest := (significant p.digits).drop leadLength
  let n := digitsValue 10 lead
  let power := p.decimalPower + rest.length
  rest.all (· == 0x30) || scale false n 10 power = scale false (n + 1) 10 power

/-- How many places of the whole part are lost. -/
def lostPlaces (p : Parts) : Nat :=
  let places := (significant p.whole).length
  if places ≤ windowLength || p.isSettled then 0 else places - windowLength

/-- The value of decimal digits with a power of ten. -/
def decimalValue (negative : Bool) (p : Parts) : Binary64 :=
  scale negative (digitsValue 10 p.digits) 10 (p.decimalPower - p.lostPlaces)

/-- The value of hexadecimal digits with a power of two. -/
def hexadecimalValue (negative : Bool) (p : Parts) : Binary64 :=
  scale negative (digitsValue 16 p.digits) 2 (p.exponent - 4 * p.fraction.length)

end Parts

/-! ### How digits are written -/

/-- A way in which digits are written. -/
structure Style where
  /-- The bytes that are digits. -/
  isDigit : UInt8 → Bool
  /-- The letter before the exponent. -/
  mark : UInt8
  /-- Whether the exponent has to be given. -/
  marked : Bool
  /-- What the digits denote. -/
  value : (negative : Bool) → Parts → Binary64

/-- Decimal digits with a power of ten. -/
def decimal : Style := ⟨ExprLang.isDigit, 0x65, false, Parts.decimalValue⟩

/-- Hexadecimal digits with a power of two. -/
def hexadecimal : Style :=
  ⟨fun b => ExprLang.isDigit b || (0x61 ≤ b && b ≤ 0x66), 0x70, true, Parts.hexadecimalValue⟩

/-- The number that the digits of an exponent denote.  Digits after the number has reached ten thousand
are passed over, which is far beyond every finite number already. -/
def exponentValue (digits : Text) : Nat :=
  digits.foldl (fun n b => if n < 10000 then 10 * n + digitValue b else n) 0

/-- An optional sign, and the text behind it. -/
def cutSign : Text → Option Bool × Text
  | 0x2D :: r => (some true, r)
  | 0x2B :: r => (some false, r)
  | t => (none, t)

/-- Whether each underscore stands between two digits.  `behindDigit` tells whether a digit stands
before the text. -/
def underscoresFit (isDigit : UInt8 → Bool) (behindDigit : Bool) : Text → Bool
  | [] => true
  | b :: r =>
    if b == 0x5F then behindDigit && r.head?.any isDigit && underscoresFit isDigit false r
    else underscoresFit isDigit (isDigit b) r

/-- An exponent: an optional sign and at least one digit, up to the end of the text. -/
def readExponent? (t : Text) : Option Int :=
  let (sign, digits) := cutSign t
  if digits ≠ [] && digits.all isDigit then
    let n : Int := exponentValue digits
    some (if sign = some true then -n else n)
  else none

/-- Digits with an optional point and an exponent, up to the end of the text. -/
def readParts? (style : Style) (t : Text) : Option Parts :=
  let whole := t.takeWhile style.isDigit
  let behind := t.dropWhile style.isDigit
  let (fraction, behind) :=
    match behind with
    | 0x2E :: r => (r.takeWhile style.isDigit, r.dropWhile style.isDigit)
    | _ => ([], behind)
  if whole ++ fraction = [] then none
  else
    let exponent? :=
      match behind with
      | [] => if style.marked then none else some 0
      | b :: r => if b == style.mark then readExponent? r else none
    exponent?.map fun e => ⟨whole, fraction, e⟩

/-- The value of digits in lower case. -/
def readDigits? (negative : Bool) (t : Text) : Option Binary64 :=
  let (style, behindDigit, body) :=
    match t with
    | 0x30 :: 0x78 :: b :: r => (hexadecimal, true, b :: r)
    | _ => (decimal, false, t)
  if underscoresFit style.isDigit behindDigit body then
    (readParts? style (body.filter (· != 0x5F))).map (style.value negative)
  else none

end Numeral

/-- The number that a numeral denotes. -/
def Binary64.ofNumeral? (t : Text) : Option Binary64 :=
  let (sign, body) := Numeral.cutSign (t.map lowerAscii)
  let negative := sign == some true
  if body = utf8 "inf" || body = utf8 "infinity" then some (.infinite negative)
  else if body = utf8 "nan" then if sign = none then some .nan else none
  else Numeral.readDigits? negative body

/-- The number that a text denotes, zero if it is no numeral. -/
def Binary64.ofText (t : Text) : Binary64 :=
  (Binary64.ofNumeral? t).getD .zero

end ExprLang
