import ExprLang.Grammar.Source
import ExprLang.Grammar.State

/-!
# Recursive descent

A reader looks one token ahead of what it has taken from its source, and each rule of the grammar is a
function that reads what the rule describes from where the reader stands.  A function that cannot read
on says why, and so do all that have called it: a token of one kind was to be taken and another one
came, no literal stands where one is due, or the source failed.

Products and sums are read alike, as operands with operators of one rank between them, folded to the
left.  What reads an operand is a `Production`: it takes at least one token, so reading further operands
comes to an end.
-/

namespace ExprLang

/-- A source and the token that has been looked at. -/
structure Reader (σ : Type) where
  source : σ
  /-- The token that comes next, if there is one. -/
  lookahead : Option Token
  /-- The location just past the last token taken. -/
  stop : Location

/-- Why a reader does not read on. -/
inductive Refusal (ε : Type) where
  /-- The source failed. -/
  | source (e : ε)
  /-- A token of a given kind was to be taken. -/
  | token (kind : Kind) (loc : Location) (found : Option Token)
  /-- A literal is due. -/
  | literal (loc : Location) (found : Option Token)
  deriving DecidableEq

/-- What comes of a descent: what has been read, or why nothing has, and the reader afterwards. -/
abbrev Descent (σ ε α : Type) := Except (Refusal ε) α × Reader σ

/-- Reads on behind something that has been read. -/
def Descent.bind {σ ε α β : Type} (x : Descent σ ε α) (next : α → Reader σ → Descent σ ε β) :
    Descent σ ε β :=
  match x with
  | (.error e, r) => (.error e, r)
  | (.ok a, r) => next a r

namespace Reader

variable {σ ε : Type} [TokenSource σ ε]

/-- Looks at the next token of the source. -/
def advance (r : Reader σ) : Descent σ ε Unit :=
  match TokenSource.next r.source with
  | (.error e, source) => (.error (.source e), { r with source := source })
  | (.ok lookahead, source) => (.ok (), { r with source := source, lookahead := lookahead })

/-- Takes the next token if it is of a given kind. -/
def eat (kind : Kind) (r : Reader σ) : Descent σ ε Token :=
  match r.lookahead with
  | none => (.error (.token kind r.stop none), r)
  | some t =>
    if t.kind ≠ kind then (.error (.token kind t.loc (some t)), r)
    else (advance { r with stop := t.stop }).bind fun _ r => (.ok t, r)

/-- Whether the next token is one of some operators. -/
def checkOperator (ops : List Text) (r : Reader σ) : Bool :=
  match r.lookahead with
  | none => false
  | some t => t.kind = .operator && ops.contains t.value

/-- How many tokens may come at most. -/
def size (r : Reader σ) : Nat :=
  match r.lookahead with
  | none => 0
  | some _ => TokenSource.size r.source + 1

/-- Behind a token that is taken there is less to come. -/
theorem size_eat_lt {kind : Kind} {r r' : Reader σ} {t : Token} (h : r.eat kind = (.ok t, r')) :
    r'.size < r.size := by
  obtain ⟨source, lookahead, stop⟩ := r
  cases lookahead with
  | none => simp [eat] at h
  | some t' =>
    simp only [eat, advance] at h
    split at h
    · simp at h
    · cases hnext : TokenSource.next source with
      | mk item after =>
        rw [hnext] at h
        cases item with
        | error e => simp [Descent.bind] at h
        | ok next =>
          obtain ⟨-, rfl⟩ : t' = t ∧ _ = r' := by simpa [Descent.bind] using h
          cases next with
          | none => simp [size]
          | some t'' =>
            have hlt : TokenSource.size (TokenSource.next source).2 < TokenSource.size source :=
              TokenSource.size_next_lt (t := t'') (by rw [hnext])
            rw [hnext] at hlt
            simpa [size] using hlt

/-- Reads a string. -/
def stringLiteral (r : Reader σ) : Descent σ ε Expr :=
  (r.eat .string).bind fun t r => (.ok (.text (unquote t.value)), r)

/-- Reads a number. -/
def numericLiteral (r : Reader σ) : Descent σ ε Expr :=
  (r.eat .number).bind fun t r => (.ok (.number (.ofText t.value)), r)

/-- Reads a string or a number. -/
def literal (r : Reader σ) : Descent σ ε Expr :=
  match r.lookahead with
  | none => (.error (.literal r.stop none), r)
  | some t =>
    match t.kind with
    | .string => r.stringLiteral
    | .number => r.numericLiteral
    | _ => (.error (.literal t.loc (some t)), r)

end Reader

/-- If something is read and something else behind it, then both of them have been read. -/
theorem Descent.exists_of_bind_eq_ok {σ ε α β : Type} {x : Descent σ ε α}
    {next : α → Reader σ → Descent σ ε β} {b : β} {r' : Reader σ}
    (h : x.bind next = (.ok b, r')) : ∃ a r, x = (.ok a, r) ∧ next a r = (.ok b, r') := by
  obtain ⟨_ | a, r⟩ := x
  · simp [Descent.bind] at h
  · exact ⟨a, r, rfl, h⟩

/-- A way to read an expression that takes at least one token. -/
structure Production (σ ε : Type) [TokenSource σ ε] where
  read : Reader σ → Descent σ ε Expr
  size_lt : ∀ {r r' : Reader σ} {e : Expr}, read r = (.ok e, r') → r'.size < r.size

namespace Production

variable {σ ε : Type} [TokenSource σ ε]

/-- Literals. -/
def literal : Production σ ε where
  read := Reader.literal
  size_lt {r r' e} h := by
    unfold Reader.literal at h
    split at h
    · simp at h
    · split at h
      · obtain ⟨t, r₁, heat, hr⟩ := Descent.exists_of_bind_eq_ok h
        obtain ⟨-, rfl⟩ := Prod.mk.inj hr
        exact Reader.size_eat_lt heat
      · obtain ⟨t, r₁, heat, hr⟩ := Descent.exists_of_bind_eq_ok h
        obtain ⟨-, rfl⟩ := Prod.mk.inj hr
        exact Reader.size_eat_lt heat
      · simp at h

/-- Reads operators and further operands behind `lhs`, as long as the operators are among `ops`. -/
def chainRest (ops : List Text) (operand : Production σ ε) (lhs : Expr) (r : Reader σ) :
    Descent σ ε Expr :=
  if r.checkOperator ops then
    match _ : r.eat .operator with
    | (.error e, r) => (.error e, r)
    | (.ok op, r₁) =>
      match _ : operand.read r₁ with
      | (.error e, r) => (.error e, r)
      | (.ok rhs, r₂) => chainRest ops operand (.binary op.value lhs rhs) r₂
  else (.ok lhs, r)
  termination_by r.size
  decreasing_by
    have := Reader.size_eat_lt ‹_›
    have := operand.size_lt ‹_›
    omega

theorem size_chainRest_le {ops : List Text} {operand : Production σ ε} {lhs e : Expr}
    {r r' : Reader σ} (h : chainRest ops operand lhs r = (.ok e, r')) : r'.size ≤ r.size := by
  fun_induction chainRest ops operand lhs r with
  | case1 => simp at h
  | case2 => simp at h
  | case3 lhs r _ op r₁ heat rhs r₂ hread ih =>
    have := Reader.size_eat_lt heat
    have := operand.size_lt hread
    have := ih h
    omega
  | case4 =>
    obtain ⟨-, rfl⟩ := Prod.mk.inj h
    exact Nat.le_refl _

/-- Operands with operators among `ops` between them. -/
def chain (ops : List Text) (operand : Production σ ε) : Production σ ε where
  read r := (operand.read r).bind (chainRest ops operand)
  size_lt h := by
    obtain ⟨lhs, r₁, hread, hrest⟩ := Descent.exists_of_bind_eq_ok h
    have := operand.size_lt hread
    have := size_chainRest_le hrest
    omega

/-- Products of literals. -/
def product : Production σ ε := chain [utf8 "*", utf8 "/"] literal

/-- Sums of products, which are all expressions. -/
def expression : Production σ ε := chain [utf8 "+", utf8 "-"] product

end Production

namespace Reader

variable {σ ε : Type} [TokenSource σ ε]

/-- Reads an expression and the semicolon behind it. -/
def statement (r : Reader σ) : Descent σ ε Stmt :=
  (Production.expression.read r).bind fun e r =>
    (r.eat .semicolon).bind fun _ r => (.ok (.expression e), r)

theorem size_statement_lt {r r' : Reader σ} {s : Stmt} (h : r.statement = (.ok s, r')) :
    r'.size < r.size := by
  obtain ⟨e, r₁, hread, hrest⟩ := Descent.exists_of_bind_eq_ok h
  obtain ⟨t, r₂, heat, hr⟩ := Descent.exists_of_bind_eq_ok hrest
  obtain ⟨-, rfl⟩ := Prod.mk.inj hr
  have := Production.expression.size_lt hread
  have := size_eat_lt heat
  omega

/-- Reads statements until no token is left, behind those in `done`, of which the latest comes
first. -/
def statements (done : List Stmt) (r : Reader σ) : Descent σ ε (List Stmt) :=
  match _ : r.statement with
  | (.error e, r) => (.error e, r)
  | (.ok s, r₁) =>
    if r₁.lookahead = none then (.ok (s :: done).reverse, r₁) else r₁.statements (s :: done)
  termination_by r.size
  decreasing_by exact size_statement_lt ‹_›

/-- Reads a program. -/
def program (r : Reader σ) : Descent σ ε Program :=
  (r.statements []).bind fun body r => (.ok ⟨body⟩, r)

end Reader

end ExprLang
