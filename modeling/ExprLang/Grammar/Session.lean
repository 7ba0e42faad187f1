import ExprLang.Grammar.Parser

/-!
# Sessions

A session is a token source that is shared by whoever makes parsers on it, runs them, or takes tokens
from it directly.
-/

namespace ExprLang

/-- What can be done with a shared source. -/
inductive Action where
  /-- Makes a new parser, which becomes the current one. -/
  | create
  /-- Runs the current parser. -/
  | run
  /-- Takes the next token. -/
  | next
  deriving DecidableEq

/-- What an action brings to light. -/
inductive Reply (ε : Type) where
  | created
  /-- The outcome of the current parser; `again` tells whether it had been settled before. -/
  | outcome (outcome : Outcome ε) (again : Bool)
  | fetched (item : Fetch ε)
  /-- There is no parser to run. -/
  | idle

/-- A shared source and the current parser on it. -/
structure Session (σ ε : Type) where
  source : Counted σ
  parser : Option (Parser ε)

namespace Session

variable {σ ε : Type} [TokenSource σ ε]

/-- A session on a source that has not been asked yet. -/
def ofSource (src : σ) : Session σ ε := ⟨⟨src, 0⟩, none⟩

/-- Whether a parser has run before. -/
def isSettled : Parser ε → Bool
  | .fresh _ => false
  | .settled _ => true

/-- Performs one action. -/
def perform (s : Session σ ε) : Action → Reply ε × Session σ ε
  | .create =>
    let (parser, source) := Parser.create s.source
    (.created, ⟨source, some parser⟩)
  | .run =>
    match s.parser with
    | none => (.idle, s)
    | some p =>
      let (outcome, parser, source) := p.run s.source
      (.outcome outcome (isSettled p), ⟨source, some parser⟩)
  | .next => (.fetched (TokenSource.next s.source).1, ⟨(TokenSource.next s.source).2, s.parser⟩)

/-- Performs actions one after another.  Each reply comes with the number of questions that the source
has been asked so far. -/
def performAll (s : Session σ ε) : List Action → List (Reply ε × Nat)
  | [] => []
  | a :: as =>
    let (reply, s) := s.perform a
    (reply, s.source.calls) :: s.performAll as

end Session

end ExprLang
