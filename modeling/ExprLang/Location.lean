import ExprLang.Text.Piece

/-!
# Locations

A location is a line and a column, each a word of 64 bits.  Reading a line feed moves to the first
column of the next line; reading any other character, or a stray byte, moves one column on.  Behind the
largest word comes the smallest, which only tokens with a location of their own choice can show.
-/

namespace ExprLang

/-- A place in a source text; lines and columns of a text are counted from one. -/
structure Location where
  line : Int64
  column : Int64
  deriving DecidableEq

namespace Location

/-- Where a text begins. -/
def start : Location := ⟨1, 1⟩

/-- The location just past one piece. -/
def past (l : Location) (p : Piece) : Location :=
  if p = .char '\n' then ⟨l.line + 1, 1⟩ else ⟨l.line, l.column + 1⟩

/-- The location just past a text that begins at `l`. -/
def after (l : Location) (t : Text) : Location :=
  (pieces t).foldl past l

@[simp] theorem after_nil (l : Location) : l.after [] = l := by
  simp [after]

/-- A location is written as its line, a colon and its column. -/
def text (l : Location) : Text :=
  Text.ofInt l.line.toInt ++ utf8 ":" ++ Text.ofInt l.column.toInt

end Location

end ExprLang
