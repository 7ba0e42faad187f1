import ExprLang.Run.Error
import ExprLang.Tree.Canonical

/-!
# Output formats

A source is shown in one of four formats: the parenthesised form, JSON or the outline of its program,
or the table of its tokens.  How outlines look is left open here: `outline` gives the outline of a program.
-/

namespace ExprLang

/-- A row of the token table: location, kind and quoted text, divided by tabs. -/
def Token.row (t : Token) : Text :=
  t.loc.text ++ utf8 "\t" ++ t.kind.name ++ utf8 "\t" ++ quoted t.value ++ utf8 "\n"

/-- The table of tokens, one to a line. -/
def tokenTable (ts : List Token) : Text :=
  ts.flatMap Token.row

/-- An output format. -/
inductive Format where
  | sexpr
  | json
  | pretty
  | tokens
  deriving DecidableEq

namespace Format

/-- All formats. -/
def all : List Format := [.sexpr, .json, .pretty, .tokens]

/-- The name of a format. -/
def name : Format → Text
  | .sexpr => utf8 "sexpr"
  | .json => utf8 "json"
  | .pretty => utf8 "pretty"
  | .tokens => utf8 "tokens"

/-- The format with a given name. -/
def ofName? (t : Text) : Option Format :=
  all.find? (·.name = t)

/-- What is said of a name that no format has. -/
def unknown (t : Text) : Text :=
  utf8 "unknown format " ++ quoted t

/-- A program in a format that shows programs; the table of tokens does not.  Only as JSON may a program
be refused. -/
def showProgram (outline : Program → Text) (p : Program) : Format → Except EncodingError Text
  | .json => p.indentedJson.map (· ++ utf8 "\n")
  | .pretty => .ok (outline p ++ utf8 "\n")
  | .sexpr | .tokens => .ok (p.canonical ++ utf8 "\n")

/-- A named source in a format, and what is logged on the way.  The table of tokens asks only that the
source can be cut into tokens, and logs nothing. -/
def render (outline : Program → Text) (f : Format) (name src : Text) :
    Except RunError Text × List Event :=
  if f = .tokens then
    match tokenize src with
    | .ok ts => (.ok (tokenTable ts), [])
    | .error e => (.error (.faulty ⟨name, .source e⟩), [])
  else
    match compile name src with
    | (.error e, events) => (.error (.faulty e), events)
    | (.ok p, events) => ((f.showProgram outline p).mapError (.unencodable name), events)

/-- In a format that shows programs, a source that can be parsed is shown unless its program is
refused. -/
theorem render_of_parse {f : Format} (hf : f ≠ .tokens) (outline : Program → Text) (name : Text)
    {src : Text} {p : Program} (h : parse src = .ok p) :
    (f.render outline name src).1 =
      (f.showProgram outline p).mapError (.unencodable name) := by
  simp [render, hf, compile, h]

end Format

end ExprLang
