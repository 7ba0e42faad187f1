import ExprLang.Grammar.Error
import ExprLang.Number.Numeral
import ExprLang.Tree

/-!
# The grammar, token by token

A program is one or more statements, each a sum and a semicolon; a sum is one or more products with `+`
or `-` between them; a product is one or more literals with `*` or `/` between them.  Operators of equal
rank group to the left.

Here the grammar is a machine that is fed one token at a time.  Its state holds the finished statements
and a focus.  Either a literal comes next, and at most one operator of each rank waits for its right
operand; or a product has just been read, which an operator may continue and a semicolon closes.
`State.feed` takes one token, `State.finish` takes the end of the input, and `parseTokens` runs the
machine over a list of tokens.  A token that does not fit is an error at once, so an error never depends
on what follows.

`parseTokens` is for tokens that are all at hand.  A parser, which has to ask for them, reads by recursive
descent; `descend_eq_pull` says that it reads what the machine reads.
-/

namespace ExprLang

/-- A text without its first and its last byte; a text of fewer than two bytes as it is. -/
def unquote (t : Text) : Text :=
  if 2 ≤ t.length then (t.drop 1).dropLast else t

namespace Token

/-- The literal that a number or a string stands for. -/
def literal? (t : Token) : Option Expr :=
  match t.kind with
  | .number => some (.number (.ofText t.value))
  | .string => some (.text (unquote t.value))
  | _ => none

end Token

/-- What a token does behind a product. -/
inductive Link where
  /-- Continues the product. -/
  | product
  /-- Closes the product and continues the sum. -/
  | sum
  /-- Closes the statement. -/
  | close
  deriving DecidableEq

/-- What a token does behind a product, if it may stand there. -/
def Token.link? (t : Token) : Option Link :=
  match t.kind with
  | .semicolon => some .close
  | .operator =>
    if t.value = utf8 "*" ∨ t.value = utf8 "/" then some .product
    else if t.value = utf8 "+" ∨ t.value = utf8 "-" then some .sum
    else none
  | _ => none

/-- An operator that waits for its right operand. -/
structure Pending where
  left : Expr
  operator : Text
  deriving DecidableEq

/-- Gives a waiting operator, if there is one, its right operand. -/
def Pending.complete : Option Pending → Expr → Expr
  | none, e => e
  | some p, e => .binary p.operator p.left e

/-- What the machine is about to read. -/
inductive Focus where
  /-- A literal, for which an operator of each rank may be waiting. -/
  | operand (sum product : Option Pending)
  /-- An operator or a semicolon, behind the product just read. -/
  | link (sum : Option Pending) (product : Expr)
  deriving DecidableEq

/-- The state of the machine. -/
structure State where
  /-- The finished statements, the latest first. -/
  statements : List Stmt
  focus : Focus
  /-- The location just past the last token. -/
  stop : Location
  deriving DecidableEq

namespace State

/-- The state before the first token. -/
def start : State := ⟨[], .operand none none, .start⟩

/-- The error of a literal that is missing. -/
def literalExpected (loc : Location) (found : Option Token) : GrammarError :=
  ⟨.unexpectedLiteral, loc, [.number, .string], found⟩

/-- The state after one more token, or the error if the token does not fit. -/
def feed (s : State) (t : Token) : Except GrammarError State :=
  match s.focus with
  | .operand sum product =>
    match t.literal? with
    | some e => .ok ⟨s.statements, .link sum (Pending.complete product e), t.stop⟩
    | none => .error (literalExpected t.loc (some t))
  | .link sum product =>
    match t.link? with
    | some .product => .ok ⟨s.statements, .operand sum (some ⟨product, t.value⟩), t.stop⟩
    | some .sum =>
      .ok ⟨s.statements, .operand (some ⟨Pending.complete sum product, t.value⟩) none, t.stop⟩
    | some .close =>
      .ok ⟨.expression (Pending.complete sum product) :: s.statements, .operand none none, t.stop⟩
    | none => .error ⟨.unexpectedToken, t.loc, [.semicolon], some t⟩

/-- The program that has been read when the input ends, or the error if it ends too early. -/
def finish (s : State) : Except GrammarError Program :=
  match s.focus, s.statements with
  | .operand none none, _ :: _ => .ok ⟨s.statements.reverse⟩
  | .operand .., _ => .error (literalExpected s.stop none)
  | .link .., _ => .error ⟨.endOfInput, s.stop, [.semicolon], none⟩

/-- Feeds a list of tokens. -/
def feedAll (s : State) (ts : List Token) : Except GrammarError State :=
  ts.foldlM feed s

end State

/-- The program that a list of tokens spells. -/
def parseTokens (ts : List Token) : Except GrammarError Program :=
  State.start.feedAll ts >>= State.finish

end ExprLang
