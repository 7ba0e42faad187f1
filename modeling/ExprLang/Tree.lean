import ExprLang.Number.Binary64
import ExprLang.Text.Basic

/-!
# Programs

A program is a list of statements, and a statement is an expression: a number, a text, or an operator
between two expressions.  Trees built by hand may lack a part; `missing` stands in its place.  The
trees that come from source texts are complete.
-/

namespace ExprLang

/-- An expression. -/
inductive Expr where
  /-- No expression, where one belongs. -/
  | missing
  | number (value : Binary64)
  | text (value : Text)
  | binary (operator : Text) (left right : Expr)
  deriving DecidableEq

/-- A statement. -/
inductive Stmt where
  /-- No statement, where one belongs. -/
  | missing
  | expression (body : Expr)
  deriving DecidableEq

/-- A program is its statements in order. -/
structure Program where
  body : List Stmt
  deriving DecidableEq

/-- Any part of a program. -/
inductive Node where
  | program (p : Program)
  | statement (s : Stmt)
  | expression (e : Expr)
  deriving DecidableEq

/-- Whether no part of an expression is missing. -/
def Expr.isComplete : Expr → Bool
  | .missing => false
  | .number _ | .text _ => true
  | .binary _ l r => l.isComplete && r.isComplete

/-- Whether no part of a statement is missing. -/
def Stmt.isComplete : Stmt → Bool
  | .missing => false
  | .expression e => e.isComplete

/-- Whether no part of a program is missing. -/
def Program.isComplete (p : Program) : Bool :=
  p.body.all Stmt.isComplete

namespace Expr

/-- The name of the kind of an expression; a missing one has none. -/
def typeName? : Expr → Option Text
  | .missing => none
  | .number _ => some (utf8 "NumericLiteral")
  | .text _ => some (utf8 "StringLiteral")
  | .binary .. => some (utf8 "BinaryExpression")

end Expr

/-- The name of the kind of a node; a missing one has none. -/
def Node.typeName? : Node → Option Text
  | .program _ => some (utf8 "Program")
  | .statement .missing => none
  | .statement (.expression _) => some (utf8 "ExpressionStatement")
  | .expression e => e.typeName?

end ExprLang
