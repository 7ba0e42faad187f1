import ExprLang.Text.Piece
import ExprLang.Text.Printable

/-!
# Quoted texts

The quoted form of a text is one line of printable characters between double quotes from which the
bytes can be read off again.  Quotes, backslashes and the seven controls with a letter of their own
get a short escape, other ASCII controls and stray bytes are written `\xhh`, unprintable characters
`\uhhhh` or `\Uhhhhhhhh`, and everything else stands for itself.
-/

namespace ExprLang

/-- The lowest `width` hexadecimal digits of a number, in lower case. -/
def hexDigits : (width n : Nat) → List Char
  | 0, _ => []
  | width + 1, n => hexDigits width (n / 16) ++ [Nat.digitChar (n % 16)]

/-- A number is written with exactly the digits that were asked for. -/
@[simp] theorem length_hexDigits (width n : Nat) : (hexDigits width n).length = width := by
  induction width generalizing n with
  | zero => rfl
  | succ width ih => simp [hexDigits, ih]

namespace Quoted

/-- The characters that are escaped by a backslash and one letter. -/
def letterEscapes : List (Char × Char) :=
  [('"', '"'), ('\\', '\\'), ('\x07', 'a'), ('\x08', 'b'), ('\x0c', 'f'), ('\n', 'n'), ('\r', 'r'),
   ('\t', 't'), ('\x0b', 'v')]

/-- The escaped form of one piece. -/
def escape : Piece → List Char
  | .stray b => ['\\', 'x'] ++ hexDigits 2 b.toNat
  | .char c =>
    match letterEscapes.lookup c with
    | some letter => ['\\', letter]
    | none =>
      if c.toNat < 0x20 || c.toNat = 0x7F then ['\\', 'x'] ++ hexDigits 2 c.toNat
      else if isPrintable c then [c]
      else if c.toNat < 0x10000 then ['\\', 'u'] ++ hexDigits 4 c.toNat
      else ['\\', 'U'] ++ hexDigits 8 c.toNat

end Quoted

/-- The quoted form of a text. -/
def quoted (t : Text) : Text :=
  Text.ofChars ('"' :: (pieces t).flatMap Quoted.escape ++ ['"'])

end ExprLang
