import ExprLang.Grammar.Descent

/-!
# Parsers

A parser reads a program from a token source.  It asks for the first token when it is made and for each
further one after it has taken the one before, up to the first answer that is no token or the first token
that does not fit.  Its outcome is settled the first time it runs; from then on it asks for nothing and
answers the same.
-/

namespace ExprLang

/-- Why there is no program: the source failed, or its tokens spell none. -/
inductive Fault (ε : Type) where
  | source (e : ε)
  | grammar (e : GrammarError)
  deriving DecidableEq

/-- A program or the fault that prevents it. -/
abbrev Outcome (ε : Type) := Except (Fault ε) Program

/-- The fault of a reader that does not read on. -/
def Refusal.fault {ε : Type} : Refusal ε → Fault ε
  | .source e => .source e
  | .token kind loc none => .grammar ⟨.endOfInput, loc, [kind], none⟩
  | .token kind loc (some t) => .grammar ⟨.unexpectedToken, loc, [kind], some t⟩
  | .literal loc found => .grammar (State.literalExpected loc found)

/-- Reads a program from a source whose first answer has already been fetched. -/
def descend {σ ε : Type} [TokenSource σ ε] (first : Fetch ε) (src : σ) :
    Except (Refusal ε) Program × σ :=
  match first with
  | .error e => (.error (.source e), src)
  | .ok lookahead =>
    let (result, reader) := Reader.program ⟨src, lookahead, .start⟩
    (result, reader.source)

/-- A parser, before and after it has run. -/
inductive Parser (ε : Type) where
  /-- The answer to its first question is all that a new parser knows. -/
  | fresh (first : Fetch ε)
  | settled (outcome : Outcome ε)

namespace Parser

/-- A new parser on a source, and the source afterwards. -/
def create {σ ε : Type} [TokenSource σ ε] (src : σ) : Parser ε × σ :=
  (.fresh (TokenSource.next src).1, (TokenSource.next src).2)

/-- The outcome of a parser; the parser and the source afterwards. -/
def run {σ ε : Type} [TokenSource σ ε] (p : Parser ε) (src : σ) : Outcome ε × Parser ε × σ :=
  match p with
  | .settled outcome => (outcome, p, src)
  | .fresh first =>
    let (result, src) := descend first src
    let outcome := result.mapError Refusal.fault
    (outcome, .settled outcome, src)

end Parser

/-- The program that a source text spells. -/
def parse (src : Text) : Outcome LexicalError :=
  let (parser, cursor) := Parser.create (Cursor.ofText src)
  (parser.run cursor).1

/-- The wording of a fault in a source text. -/
def Fault.message : Fault LexicalError → Text
  | .source e => e.message
  | .grammar e => e.message

end ExprLang
