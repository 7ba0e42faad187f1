import ExprLang.Lexical.Rule
import ExprLang.Text.Quoted

/-!
# Lexical errors

Where no rule applies, the text cannot be cut any further.  The error keeps the location and all of
the text from there on; its message shows no more than the beginning of the line.
-/

namespace ExprLang

/-- No lexical rule applies at `loc`, where the text `near` begins. -/
structure LexicalError where
  loc : Location
  near : Text
  deriving DecidableEq

namespace LexicalError

/-- How many pieces of a text a message shows at most. -/
def excerptLimit : Nat := 20

/-- The part of a text that a message shows: its first line, or the beginning of that line and three
dots if the line is longer than the limit. -/
def excerpt (near : Text) : Text :=
  let line := near.takeWhile (!isLineEnd ·)
  if (pieces line).length ≤ excerptLimit then line
  else Text.ofChars ((scalars line).take excerptLimit) ++ utf8 "..."

/-- The wording of a lexical error. -/
def message (e : LexicalError) : Text :=
  e.loc.text ++ utf8 ": unexpected token near " ++ quoted (excerpt e.near)

end LexicalError

end ExprLang
