import ExprLang.Number.Numeral
import ExprLang.Text.Piece

/-!
# Log levels

A log level is a small whole number; the higher it is, the less is logged.  Most of the levels in use
have a name, which may be written in letters of any case.  Other levels are written as decimal numbers.
-/

namespace ExprLang

/-- A log level. -/
structure Level where
  code : Int
  deriving DecidableEq

/-- Why a text is no log level. -/
inductive LevelError where
  | unknown (text : Text)
  | outOfBounds (code : Int)
  deriving DecidableEq

/-- The wording of a level error. -/
def LevelError.message : LevelError → Text
  | .unknown text => utf8 "Unknown Level String: '" ++ text ++ utf8 "', defaulting to NoLevel"
  | .outOfBounds code =>
    utf8 "Out-Of-Bounds Level: '" ++ Text.ofInt code ++ utf8 "', defaulting to NoLevel"

namespace Level

/-- The level of all lines that this program logs. -/
def debug : Level := ⟨0⟩

/-- The levels with a name. -/
def named : List (String × Level) :=
  [("trace", ⟨-1⟩), ("debug", debug), ("info", ⟨1⟩), ("warn", ⟨2⟩), ("error", ⟨3⟩), ("fatal", ⟨4⟩),
   ("panic", ⟨5⟩), ("disabled", ⟨7⟩), ("", ⟨6⟩)]

/-- The name of a level, or its number. -/
def name (l : Level) : Text :=
  match named.find? (·.2 = l) with
  | some (name, _) => utf8 name
  | none => Text.ofInt l.code

/-- A letter in lower case, where the long s and the Kelvin sign count as letters of ASCII. -/
def foldCase : Piece → Piece
  | .char '\u017F' => .char 's'
  | .char '\u212A' => .char 'k'
  | .char c => .char c.toLower
  | .stray b => .stray b

/-- Whether a text spells a name, whatever the case of its letters. -/
def spells (t : Text) (name : String) : Bool :=
  (pieces t).map foldCase = name.toList.map .char

/-- The whole number of 64 bits that a text denotes. -/
def readInt? (t : Text) : Option Int :=
  let (sign, digits) := Numeral.cutSign t
  if digits ≠ [] && digits.all isDigit then
    let n : Int := Numeral.digitsValue 10 digits
    let n := if sign = some true then -n else n
    if -9223372036854775808 ≤ n && n ≤ 9223372036854775807 then some n else none
  else none

/-- The level that a text denotes, by its name or its number. -/
def ofText (t : Text) : Except LevelError Level :=
  match named.find? (spells t ·.1) with
  | some (_, level) => .ok level
  | none =>
    match readInt? t with
    | none => .error (.unknown t)
    | some n => if -128 ≤ n && n ≤ 127 then .ok ⟨n⟩ else .error (.outOfBounds n)

/-- Whether a logger with threshold `l` writes lines of level `line`. -/
def admits (l line : Level) : Bool := l.code ≤ line.code

end Level

end ExprLang
