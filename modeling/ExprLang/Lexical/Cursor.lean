import ExprLang.Lexical.Error

/-!
# Cursors

A cursor stands in a source text: it holds the unread rest and the location where that begins.
`Cursor.next` moves it past the next token, skipping comments and blanks on the way.  At the end of
the text, and where no rule applies, a cursor stays where it is, so asking again gives the same
answer.

`Cursor.drain` reads on until there is no further token, and `tokenize` reads a whole text.  The loop
over the rule table takes the table as an argument; all uses pass `Rule.table`.
-/

namespace ExprLang

/-- A place in a source text together with the text from there on. -/
structure Cursor where
  rest : Text
  loc : Location
  deriving DecidableEq

/-- The first rule of a table that applies to a text, its lexeme, and the text behind it. -/
def firstCut? (table : List Rule) (t : Text) : Option (Rule × Text × Text) :=
  table.findSome? fun rule => (rule.cut? t).map fun cut => (rule, cut)

theorem cut?_of_firstCut? {table : List Rule} {t : Text} {rule : Rule} {cut : Text × Text}
    (h : firstCut? table t = some (rule, cut)) : rule ∈ table ∧ rule.cut? t = some cut := by
  obtain ⟨rule', hmem, hcut⟩ := List.exists_of_findSome?_eq_some h
  obtain ⟨cut', hcut', heq⟩ := Option.map_eq_some_iff.1 hcut
  obtain ⟨rfl, rfl⟩ := Prod.mk.inj heq
  exact ⟨hmem, hcut'⟩

namespace Cursor

/-- The cursor at the beginning of a text. -/
def ofText (src : Text) : Cursor := ⟨src, .start⟩

/-- The next token, or nothing at the end of the text, and the cursor behind it.  The rules of
`table` are tried in order. -/
def nextWith (table : List Rule) (c : Cursor) : Except LexicalError (Option Token) × Cursor :=
  match _h : firstCut? table c.rest with
  | some (rule, lexeme, rest) =>
    match rule.kind? with
    | some kind => (.ok (some ⟨kind, lexeme, c.loc⟩), ⟨rest, c.loc.after lexeme⟩)
    | none => nextWith table ⟨rest, c.loc.after lexeme⟩
  | none => (if c.rest = [] then .ok none else .error ⟨c.loc, c.rest⟩, c)
  termination_by c.rest.length
  decreasing_by exact Rule.length_lt_of_cut? (cut?_of_firstCut? _h).2

/-- The next token of a text and the cursor behind it. -/
def next (c : Cursor) : Except LexicalError (Option Token) × Cursor :=
  c.nextWith Rule.table

/-- Reading a token takes something off the text. -/
theorem length_nextWith_lt {table : List Rule} {c : Cursor} {t : Token}
    (h : (c.nextWith table).1 = .ok (some t)) :
    (c.nextWith table).2.rest.length < c.rest.length := by
  fun_induction nextWith table c with
  | case1 c rule lexeme rest hcut kind hkind =>
    exact Rule.length_lt_of_cut? (cut?_of_firstCut? hcut).2
  | case2 c rule lexeme rest hcut hkind ih =>
    have := Rule.length_lt_of_cut? (cut?_of_firstCut? hcut).2
    exact Nat.lt_trans (ih h) this
  | case3 c hcut => split at h <;> simp at h

/-- All tokens from a cursor on, and the error that ends them unless the text does. -/
def drainWith (table : List Rule) (c : Cursor) : List Token × Option LexicalError :=
  match _h : (c.nextWith table).1 with
  | .ok (some t) =>
    let later := drainWith table (c.nextWith table).2
    (t :: later.1, later.2)
  | .ok none => ([], none)
  | .error e => ([], some e)
  termination_by c.rest.length
  decreasing_by exact length_nextWith_lt _h

/-- All tokens from a cursor on, and the error that ends them unless the text does. -/
def drain (c : Cursor) : List Token × Option LexicalError :=
  c.drainWith Rule.table

end Cursor

/-- The tokens of a text under a given order of the rules. -/
def tokenizeWith (table : List Rule) (src : Text) : Except LexicalError (List Token) :=
  match (Cursor.ofText src).drainWith table with
  | (tokens, none) => .ok tokens
  | (_, some e) => .error e

/-- The tokens of a text. -/
def tokenize (src : Text) : Except LexicalError (List Token) :=
  tokenizeWith Rule.table src

end ExprLang
