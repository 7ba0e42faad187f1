import ExprLang.Number.Layout
import ExprLang.Text.Quoted
import ExprLang.Tree

/-!
# The parenthesised form

Every operator stands in parentheses with its two operands, without blanks: `1 + 2 * 3;` is written
`(1+(2*3));`.  Each statement ends in a semicolon and statements are divided by line feeds.  Numbers
never have an exponent, texts are quoted, and what is missing leaves nothing behind.

An expression is written in front of a given text, so that nothing is copied on the way out of a deep
one; `Expr.canonical_binary` gives its form from those of its operands.
-/

namespace ExprLang

/-- Numbers of the parenthesised form are written positionally, however long that is. -/
def Binary64.plainLayout : Layout := ⟨fun _ => true, 1⟩

/-- A number in the parenthesised form. -/
def Binary64.plain : Binary64 → Text
  | .nan => utf8 "NaN"
  | .infinite false => utf8 "Infinity"
  | .infinite true => utf8 "-Inf"
  | .finite negative m => plainLayout.text negative m

/-- The parenthesised form of an expression in front of a text. -/
def Expr.canonicalOnto : Expr → Text → Text
  | .missing, rest => rest
  | .number v, rest => v.plain ++ rest
  | .text v, rest => quoted v ++ rest
  | .binary op l r, rest =>
    utf8 "(" ++ l.canonicalOnto (op ++ r.canonicalOnto (utf8 ")" ++ rest))

/-- The parenthesised form of an expression. -/
def Expr.canonical (e : Expr) : Text :=
  e.canonicalOnto []

namespace Expr

/-- An expression in front of a text is the expression and then the text. -/
theorem canonicalOnto_eq_append (e : Expr) (rest : Text) :
    e.canonicalOnto rest = e.canonical ++ rest := by
  unfold canonical
  induction e generalizing rest with
  | missing => rfl
  | number v => simp [canonicalOnto]
  | text v => simp [canonicalOnto]
  | binary op l r ihl ihr =>
    simp only [canonicalOnto]
    rw [ihl, ihl (op ++ _), ihr, ihr (utf8 ")" ++ [])]
    simp

@[simp] theorem canonical_missing : canonical .missing = [] := rfl

@[simp] theorem canonical_number (v : Binary64) : canonical (.number v) = v.plain := by
  simp [canonical, canonicalOnto]

@[simp] theorem canonical_text (v : Text) : canonical (.text v) = quoted v := by
  simp [canonical, canonicalOnto]

/-- An operator stands in parentheses between its operands. -/
@[simp] theorem canonical_binary (op : Text) (l r : Expr) :
    canonical (.binary op l r) = utf8 "(" ++ l.canonical ++ op ++ r.canonical ++ utf8 ")" := by
  rw [canonical, canonicalOnto, canonicalOnto_eq_append, canonicalOnto_eq_append]
  simp

end Expr

/-- The parenthesised form of a statement. -/
def Stmt.canonical : Stmt → Text
  | .missing => []
  | .expression e => e.canonical ++ utf8 ";"

/-- The parenthesised form of a program. -/
def Program.canonical (p : Program) : Text :=
  Text.join (utf8 "\n") (p.body.map Stmt.canonical)

/-- The parenthesised form of a node. -/
def Node.canonical : Node → Text
  | .program p => p.canonical
  | .statement s => s.canonical
  | .expression e => e.canonical

end ExprLang
