import ExprLang.Number.Layout
import ExprLang.Text.Quoted
import ExprLang.Tree

/-!
# Outlines

The outline of a program shows its nodes as nested records, one field a line, four blanks further in
for each level.  The values of neighbouring fields are aligned, and a value that takes several lines
ends the alignment.  Expressions are shown to a limited depth.
-/

namespace ExprLang

/-- Numbers of an outline are written positionally if the first digit has a power of ten from `-4` to
`5`; an exponent has at least two digits. -/
def Binary64.outlineLayout : Layout := ⟨fun e => -4 ≤ e && e < 6, 2⟩

/-- A number in an outline. -/
def Binary64.outline : Binary64 → Text
  | .nan => utf8 "NaN"
  | .infinite false => utf8 "+Inf"
  | .infinite true => utf8 "-Inf"
  | .finite negative m => outlineLayout.text negative m

namespace Outline

/-- The level from which on expressions are not shown; the expression of a statement has level one. -/
def depthLimit : Nat := 8

/-- The beginning of a line that is `n` levels in. -/
def newline (n : Nat) : Text :=
  utf8 "\n" ++ List.replicate (4 * n) 0x20

/-- The record of a literal, whose only field is left out if it has the value of an empty literal. -/
def literal (name : String) (isEmpty : Bool) (value : Text) : Text :=
  utf8 "&exprc." ++ utf8 name ++ utf8 "\x7b" ++
    (if isEmpty then [] else utf8 "Value:" ++ value) ++ utf8 "\x7d"

/-- Whether a number is one of the two zeros. -/
def isZero : Binary64 → Bool
  | .finite _ m => m.mantissa = 0
  | _ => false

/-- Whether an expression at a given level takes several lines. -/
def spansLines (level : Nat) : Expr → Bool
  | .binary .. => level < depthLimit
  | _ => false

end Outline

open Outline

/-- The outline of an expression.  An expression at level `n` starts on a line that is `n + 2` levels
in. -/
def Expr.outline (level : Nat) (e : Expr) : Text :=
  if depthLimit ≤ level then utf8 "&!%v(DEPTH EXCEEDED)"
  else
    match e with
    | .missing => utf8 "nil"
    | .number v => literal "NumericLiteral" (isZero v) v.outline
    | .text v => literal "StringLiteral" v.isEmpty (quoted v)
    | .binary op l r =>
      utf8 "&exprc.BinaryExpression\x7b" ++
        newline (level + 3) ++ utf8 "Operator: " ++ quoted op ++ utf8 "," ++
        newline (level + 3) ++ utf8 "Left:     " ++ l.outline (level + 1) ++ utf8 "," ++
        newline (level + 3) ++ utf8 (if spansLines (level + 1) l then "Right: " else "Right:    ") ++
        r.outline (level + 1) ++ utf8 "," ++
        newline (level + 2) ++ utf8 "\x7d"

/-- The outline of a statement. -/
def Stmt.outline : Stmt → Text
  | .missing => utf8 "nil"
  | .expression e =>
    utf8 "&exprc.ExpressionStatement\x7b" ++
      newline 3 ++ utf8 "Body: " ++ e.outline 1 ++ utf8 "," ++
      newline 2 ++ utf8 "\x7d"

/-- The outline of a program. -/
def Program.outline (p : Program) : Text :=
  utf8 "&exprc.Program\x7b" ++ newline 1 ++ utf8 "Body: \x7b" ++
    p.body.flatMap (fun s => newline 2 ++ s.outline ++ utf8 ",") ++
    newline 1 ++ utf8 "\x7d," ++ newline 0 ++ utf8 "\x7d"

end ExprLang
