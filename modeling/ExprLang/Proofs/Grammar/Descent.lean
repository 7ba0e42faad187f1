import ExprLang.Grammar.Parser
import Mathlib.Data.List.Basic

/-!
# The descent reads what the machine reads

`pull` runs the machine of the grammar on a token source.  A reader that stands somewhere in a program
corresponds to a state of the machine, and reading a part of the program takes the machine from the
state in front of this part to the state behind it.  For each rule of the grammar there is an equation
that says so, with what comes behind as an argument (`Reader.resume_eq_statement` and the lemmas before
it), and the last one is that a parser reads what the machine reads (`descend_eq_pull`).

The machine does not tell why a token was to be taken, but the descent does.  A token of a given kind is
taken only after its kind has been looked at, except for a semicolon, so a reader refuses to go on for
want of a token only where this should be a semicolon (`Reader.refusesOnly_program`).
-/

namespace ExprLang

/-! ## The machine on a source -/

section Pull

variable {σ ε : Type} [TokenSource σ ε]

/-- Runs the machine of the grammar from a state on an answer already fetched and on what the source
answers next. -/
def pull (s : State) (item : Fetch ε) (src : σ) : Outcome ε × σ :=
  match item with
  | .error e => (.error (.source e), src)
  | .ok none => (s.finish.mapError .grammar, src)
  | .ok (some t) =>
    match s.feed t with
    | .error e => (.error (.grammar e), src)
    | .ok s => pull s (TokenSource.next src).1 (TokenSource.next src).2
  termination_by
    match item with
    | .ok (some _) => TokenSource.size src + 1
    | _ => 0
  decreasing_by
    split
    · next h =>
      have := TokenSource.size_next_lt h
      omega
    · omega

/-- A failure is passed on, and nothing more is asked. -/
lemma pull_error (s : State) (e : ε) (src : σ) :
    pull s (.error e) src = (.error (.source e), src) := by
  rw [pull]

/-- At the end the state is finished, and nothing more is asked. -/
lemma pull_none (s : State) (src : σ) :
    pull s (.ok none) src = (s.finish.mapError .grammar, src) := by
  rw [pull]

/-- A token that does not fit is refused, and nothing more is asked. -/
lemma pull_refused {s : State} {t : Token} {e : GrammarError} (h : s.feed t = .error e) (src : σ) :
    pull s (.ok (some t)) src = (.error (.grammar e), src) := by
  rw [pull, h]

/-- After a token that fits the next item is asked for. -/
lemma pull_taken {s s' : State} {t : Token} (h : s.feed t = .ok s') (src : σ) :
    pull s (.ok (some t)) src = pull s' (TokenSource.next src).1 (TokenSource.next src).2 := by
  rw [pull, h]

end Pull

/-! ## Reading on -/

section AndThen

variable {σ ε α : Type}

/-- What comes of a descent in the end, if `next` comes behind it. -/
def Descent.andThen (x : Descent σ ε α) (next : α → Reader σ → Outcome ε × σ) :
    Outcome ε × σ :=
  match x with
  | (.error e, r) => (.error e.fault, r.source)
  | (.ok a, r) => next a r

@[simp] lemma Descent.andThen_ok (a : α) (r : Reader σ) (next : α → Reader σ → Outcome ε × σ) :
    Descent.andThen (.ok a, r) next = next a r := rfl

@[simp] lemma Descent.andThen_error (e : Refusal ε) (r : Reader σ)
    (next : α → Reader σ → Outcome ε × σ) :
    Descent.andThen (.error e, r) next = (.error e.fault, r.source) := rfl

/-- What comes behind two parts comes behind the second one. -/
lemma Descent.andThen_bind {β : Type} (x : Descent σ ε α) (f : α → Reader σ → Descent σ ε β)
    (next : β → Reader σ → Outcome ε × σ) :
    (x.bind f).andThen next = x.andThen fun a r => (f a r).andThen next := by
  obtain ⟨_ | _, r⟩ := x <;> rfl

/-- What comes behind a descent matters only for what it can leave. -/
lemma Descent.andThen_congr {x : Descent σ ε α} {next next' : α → Reader σ → Outcome ε × σ}
    (h : ∀ a r, x = (.ok a, r) → next a r = next' a r) : x.andThen next = x.andThen next' := by
  obtain ⟨_ | a, r⟩ := x
  · rfl
  · exact h a r rfl

end AndThen

/-! ## Reading and the machine -/

section Resume

variable {σ ε : Type} [TokenSource σ ε]

namespace Reader

/-- The machine goes on from where a reader stands. -/
def resume (stmts : List Stmt) (focus : Focus) (r : Reader σ) : Outcome ε × σ :=
  pull ⟨stmts, focus, r.stop⟩ (.ok r.lookahead) r.source

/-- A token that the machine takes is taken by the reader. -/
lemma resume_of_feed {stmts stmts' : List Stmt} {focus focus' : Focus} {r : Reader σ} {t : Token}
    (ht : r.lookahead = some t)
    (hfeed : State.feed ⟨stmts, focus, r.stop⟩ t = .ok ⟨stmts', focus', t.stop⟩)
    {next : Token → Reader σ → Outcome ε × σ} (hnext : next t = resume stmts' focus') :
    r.resume stmts focus = (r.eat t.kind).andThen next := by
  rw [resume, ht, pull_taken hfeed]
  cases h : TokenSource.next r.source with
  | mk item source =>
    cases item with
    | error e => simp [eat, ht, advance, h, Descent.bind, Descent.andThen, pull_error, Refusal.fault]
    | ok lookahead => simp [eat, ht, advance, h, Descent.bind, Descent.andThen, hnext, resume]

/-- Where a literal is due, the reader reads one. -/
lemma resume_eq_literal {stmts : List Stmt} {sum product : Option Pending} {r : Reader σ}
    (hend : r.lookahead = none → State.finish ⟨stmts, .operand sum product, r.stop⟩ =
      .error (State.literalExpected r.stop none)) :
    r.resume stmts (.operand sum product) = r.literal.andThen fun e =>
      resume stmts (.link sum (Pending.complete product e)) := by
  cases ht : r.lookahead with
  | none =>
    rw [resume, ht, pull_none, hend ht]
    simp [literal, ht, Descent.andThen, Refusal.fault, Except.mapError]
  | some t =>
    have hfeed {e : Expr} (he : t.literal? = some e) :
        State.feed ⟨stmts, .operand sum product, r.stop⟩ t =
          .ok ⟨stmts, .link sum (Pending.complete product e), t.stop⟩ := by
      simp [State.feed, he]
    cases hk : t.kind with
    | number =>
      have he : t.literal? = some (.number (.ofText t.value)) := by simp [Token.literal?, hk]
      have hread : r.literal = r.numericLiteral := by simp [literal, ht, hk]
      rw [hread, numericLiteral, Descent.andThen_bind, ← hk]
      exact resume_of_feed ht (hfeed he) rfl
    | string =>
      have he : t.literal? = some (.text (unquote t.value)) := by simp [Token.literal?, hk]
      have hread : r.literal = r.stringLiteral := by simp [literal, ht, hk]
      rw [hread, stringLiteral, Descent.andThen_bind, ← hk]
      exact resume_of_feed ht (hfeed he) rfl
    | semicolon | operator | unnamed offset =>
      have he : State.feed ⟨stmts, .operand sum product, r.stop⟩ t =
          .error (State.literalExpected t.loc (some t)) := by
        simp [State.feed, Token.literal?, hk]
      rw [resume, ht, pull_refused he]
      simp [literal, ht, hk, Descent.andThen, Refusal.fault]

/-- What has been looked at where an operator comes next. -/
lemma checkOperator_eq_true_iff {ops : List Text} {r : Reader σ} :
    r.checkOperator ops = true ↔ ∃ t, r.lookahead = some t ∧ t.kind = .operator ∧ t.value ∈ ops := by
  cases h : r.lookahead <;> simp [checkOperator, h]

end Reader

namespace Token

/-- Operators of products continue a product. -/
lemma link?_eq_product_of_mem {t : Token} (hk : t.kind = .operator)
    (hv : t.value ∈ [utf8 "*", utf8 "/"]) : t.link? = some .product := by
  simp [link?, hk, List.mem_pair.1 hv]

/-- Operators of sums close a product. -/
lemma link?_eq_sum_of_mem {t : Token} (hk : t.kind = .operator)
    (hv : t.value ∈ [utf8 "+", utf8 "-"]) : t.link? = some .sum := by
  have hproduct : ¬ (t.value = utf8 "*" ∨ t.value = utf8 "/") := by
    rcases List.mem_pair.1 hv with h | h <;> rw [h] <;> decide
  simp [link?, hk, hproduct, List.mem_pair.1 hv]

end Token

namespace Production

open Reader Token

/-- Where a chain ends, none of its operators comes next. -/
lemma checkOperator_of_chainRest {ops : List Text} {operand : Production σ ε} {lhs e : Expr}
    {r r' : Reader σ} (h : chainRest ops operand lhs r = (.ok e, r')) :
    r'.checkOperator ops = false := by
  fun_induction chainRest ops operand lhs r with
  | case1 => simp at h
  | case2 => simp at h
  | case3 _ _ _ _ _ _ _ _ _ ih => exact ih h
  | case4 lhs r hcheck =>
    obtain ⟨-, rfl⟩ := Prod.mk.inj h
    simpa using hcheck

/-- Behind a literal the reader reads the rest of the product. -/
lemma resume_eq_productRest (stmts : List Stmt) (sum : Option Pending) (lhs : Expr) (r : Reader σ) :
    r.resume stmts (.link sum lhs) =
      (chainRest [utf8 "*", utf8 "/"] literal lhs r).andThen fun e =>
        resume stmts (.link sum e) := by
  -- each round of the loop is two steps of the machine: the operator, and then the literal
  have hoperator {lhs : Expr} {r : Reader σ}
      (hcheck : r.checkOperator [utf8 "*", utf8 "/"] = true) :
      r.resume stmts (.link sum lhs) = (r.eat .operator).andThen fun op r₁ =>
        r₁.literal.andThen fun e => resume stmts (.link sum (.binary op.value lhs e)) := by
    obtain ⟨t, ht, hk, hv⟩ := checkOperator_eq_true_iff.1 hcheck
    have hfeed : State.feed ⟨stmts, .link sum lhs, r.stop⟩ t =
        .ok ⟨stmts, .operand sum (some ⟨lhs, t.value⟩), t.stop⟩ := by
      simp [State.feed, link?_eq_product_of_mem hk hv]
    rw [← hk]
    refine resume_of_feed ht hfeed ?_
    funext r₁
    rw [resume_eq_literal fun _ => by cases sum <;> rfl]
    rfl
  fun_induction chainRest [utf8 "*", utf8 "/"] literal lhs r with
  | case1 lhs r hcheck e r₁ heat => rw [hoperator hcheck, heat, Descent.andThen_error]; rfl
  | case2 lhs r hcheck op r₁ heat e r₂ hread =>
    have hread' : r₁.literal = (.error e, r₂) := hread
    rw [hoperator hcheck, heat, Descent.andThen_ok, hread']
    rfl
  | case3 lhs r hcheck op r₁ heat rhs r₂ hread ih =>
    have hread' : r₁.literal = (.ok rhs, r₂) := hread
    rw [hoperator hcheck, heat, Descent.andThen_ok, hread']
    exact ih
  | case4 lhs r hcheck => rfl

/-- Where an operand of a sum is due, the reader reads a product. -/
lemma resume_eq_product {stmts : List Stmt} {sum : Option Pending} {r : Reader σ}
    (hend : r.lookahead = none → State.finish ⟨stmts, .operand sum none, r.stop⟩ =
      .error (State.literalExpected r.stop none)) :
    r.resume stmts (.operand sum none) =
      (product.read r).andThen fun e => resume stmts (.link sum e) := by
  rw [resume_eq_literal hend, product, chain, Descent.andThen_bind]
  refine Descent.andThen_congr fun e r₁ _ => ?_
  exact resume_eq_productRest stmts sum e r₁

/-- Behind a product none of its operators comes next. -/
lemma checkOperator_of_product {r r' : Reader σ} {e : Expr} (h : product.read r = (.ok e, r')) :
    r'.checkOperator [utf8 "*", utf8 "/"] = false := by
  obtain ⟨lhs, r₁, -, hrest⟩ := Descent.exists_of_bind_eq_ok h
  exact checkOperator_of_chainRest hrest

/-- Where no operator comes next, a semicolon has to. -/
lemma resume_eq_semicolon (stmts : List Stmt) (sum : Option Pending) (e : Expr) {r : Reader σ}
    (hproduct : r.checkOperator [utf8 "*", utf8 "/"] = false)
    (hsum : r.checkOperator [utf8 "+", utf8 "-"] = false) :
    r.resume stmts (.link sum e) = (r.eat .semicolon).andThen fun _ =>
      resume (.expression (Pending.complete sum e) :: stmts) (.operand none none) := by
  cases ht : r.lookahead with
  | none =>
    rw [resume, ht, pull_none]
    simp [eat, ht, State.finish, Refusal.fault, Except.mapError]
  | some t =>
    by_cases hk : t.kind = .semicolon
    · have hfeed : State.feed ⟨stmts, .link sum e, r.stop⟩ t =
          .ok ⟨.expression (Pending.complete sum e) :: stmts, .operand none none, t.stop⟩ := by
        simp [State.feed, Token.link?, hk]
      rw [← hk]
      exact resume_of_feed ht hfeed rfl
    · have hlink : t.link? = none := by
        have hproduct' : ¬ (t.kind = .operator ∧ t.value ∈ [utf8 "*", utf8 "/"]) := by
          simpa [checkOperator, ht] using hproduct
        have hsum' : ¬ (t.kind = .operator ∧ t.value ∈ [utf8 "+", utf8 "-"]) := by
          simpa [checkOperator, ht] using hsum
        cases hkind : t.kind <;> simp_all [Token.link?]
      have hfeed : State.feed ⟨stmts, .link sum e, r.stop⟩ t =
          .error ⟨.unexpectedToken, t.loc, [.semicolon], some t⟩ := by
        simp [State.feed, hlink]
      rw [resume, ht, pull_refused hfeed]
      simp [eat, ht, hk, Refusal.fault]

/-- Behind a product the reader reads the rest of the sum and the semicolon. -/
lemma resume_eq_sumRest (stmts : List Stmt) (sum : Option Pending) (e : Expr) {r : Reader σ}
    (hproduct : r.checkOperator [utf8 "*", utf8 "/"] = false) :
    r.resume stmts (.link sum e) =
      (chainRest [utf8 "+", utf8 "-"] product (Pending.complete sum e) r).andThen fun x r₁ =>
        (r₁.eat .semicolon).andThen fun _ =>
          resume (.expression x :: stmts) (.operand none none) := by
  -- what waits in the machine and the product behind it are what the reader has folded so far
  have hoperator {sum : Option Pending} {e : Expr} {r : Reader σ}
      (hcheck : r.checkOperator [utf8 "+", utf8 "-"] = true) :
      r.resume stmts (.link sum e) = (r.eat .operator).andThen fun op r₁ =>
        (product.read r₁).andThen fun rhs =>
          resume stmts (.link (some ⟨Pending.complete sum e, op.value⟩) rhs) := by
    obtain ⟨t, ht, hk, hv⟩ := checkOperator_eq_true_iff.1 hcheck
    have hfeed : State.feed ⟨stmts, .link sum e, r.stop⟩ t =
        .ok ⟨stmts, .operand (some ⟨Pending.complete sum e, t.value⟩) none, t.stop⟩ := by
      simp [State.feed, link?_eq_sum_of_mem hk hv]
    rw [← hk]
    refine resume_of_feed ht hfeed ?_
    funext r₁
    rw [resume_eq_product fun _ => rfl]
  generalize hlhs : Pending.complete sum e = lhs
  fun_induction chainRest [utf8 "+", utf8 "-"] product lhs r generalizing sum e with
  | case1 lhs r hcheck e' r₁ heat => rw [hoperator hcheck, heat]; rfl
  | case2 lhs r hcheck op r₁ heat e' r₂ hread =>
    rw [hoperator hcheck, heat, Descent.andThen_ok, hread]
    rfl
  | case3 lhs r hcheck op r₁ heat rhs r₂ hread ih =>
    rw [hoperator hcheck, heat, Descent.andThen_ok, hread, hlhs]
    exact ih (some ⟨lhs, op.value⟩) rhs (checkOperator_of_product hread) rfl
  | case4 lhs r hcheck =>
    rw [resume_eq_semicolon stmts sum e hproduct (by simpa using hcheck), hlhs]
    rfl

end Production

namespace Reader

/-- Where a statement is due, the reader reads one. -/
lemma resume_eq_statement {stmts : List Stmt} {r : Reader σ}
    (hend : r.lookahead = none → stmts = []) :
    r.resume stmts (.operand none none) = r.statement.andThen fun s =>
      resume (s :: stmts) (.operand none none) := by
  have hfinish : r.lookahead = none → State.finish ⟨stmts, .operand none none, r.stop⟩ =
      .error (State.literalExpected r.stop none) := by
    intro h
    rw [hend h]
    rfl
  rw [Production.resume_eq_product hfinish, statement, Production.expression, Production.chain]
  simp only [Descent.andThen_bind, Descent.andThen_ok]
  refine Descent.andThen_congr fun e r₁ hread => ?_
  exact Production.resume_eq_sumRest stmts none e (Production.checkOperator_of_product hread)

/-- Where a program begins or may go on, the reader reads all further statements. -/
lemma resume_eq_statements {stmts : List Stmt} {r : Reader σ}
    (hend : r.lookahead = none → stmts = []) :
    r.resume stmts (.operand none none) =
      (r.statements stmts).andThen fun body r₁ => (.ok ⟨body⟩, r₁.source) := by
  fun_induction statements stmts r with
  | case1 stmts r e r₁ hread => rw [resume_eq_statement hend, hread]; rfl
  | case2 stmts r s r₁ hread hnone =>
    rw [resume_eq_statement hend, hread, Descent.andThen_ok, resume, hnone, pull_none]
    rfl
  | case3 stmts r s r₁ hread hsome ih =>
    rw [resume_eq_statement hend, hread, Descent.andThen_ok]
    exact ih fun h => absurd h hsome

end Reader

/-- A parser reads what the machine reads. -/
lemma descend_eq_pull (first : Fetch ε) (src : σ) :
    ((descend first src).1.mapError Refusal.fault, (descend first src).2) =
      pull .start first src := by
  cases first with
  | error e => rw [pull_error]; rfl
  | ok lookahead =>
    let r : Reader σ := ⟨src, lookahead, .start⟩
    have hread : r.resume [] (.operand none none) =
        (r.statements []).andThen fun body r₁ => (.ok ⟨body⟩, r₁.source) :=
      Reader.resume_eq_statements fun _ => rfl
    rw [Reader.resume] at hread
    rw [State.start, hread, descend, Reader.program]
    obtain ⟨_ | body, r⟩ := Reader.statements [] ⟨src, lookahead, .start⟩ <;> rfl

/-- A new parser that runs pulls its tokens through the machine. -/
lemma Parser.run_fresh (first : Fetch ε) (src : σ) :
    (Parser.fresh first).run src =
      ((pull .start first src).1, .settled (pull .start first src).1, (pull .start first src).2) := by
  rw [← descend_eq_pull]
  rfl

end Resume

/-! ## What is refused for want of a token -/

/-- A descent is refused for want of a token only if the kind of this token is among `kinds`. -/
def Descent.RefusesOnly {σ ε α : Type} (kinds : List Kind) (x : Descent σ ε α) : Prop :=
  ∀ kind loc found, x.1 = .error (.token kind loc found) → kind ∈ kinds

namespace Descent.RefusesOnly

variable {σ ε α β : Type} {kinds : List Kind}

lemma ok (a : α) (r : Reader σ) : RefusesOnly kinds ((.ok a, r) : Descent σ ε α) := by
  rintro kind loc found ⟨⟩

/-- Where a literal is due, no token of one kind is wanted. -/
lemma literal (loc : Location) (found : Option Token) (r : Reader σ) :
    RefusesOnly kinds ((.error (.literal loc found), r) : Descent σ ε α) := by
  rintro kind loc found ⟨⟩

/-- Reading on keeps to the kinds that both parts are refused for. -/
lemma bind {x : Descent σ ε α} {next : α → Reader σ → Descent σ ε β} (hx : x.RefusesOnly kinds)
    (hnext : ∀ a r, (next a r).RefusesOnly kinds) : (x.bind next).RefusesOnly kinds := by
  obtain ⟨e | a, r⟩ := x
  · rintro kind loc found ⟨⟩
    exact hx kind loc found rfl
  · exact hnext a r

/-- What is refused for fewer kinds is refused for more. -/
lemma mono {kinds' : List Kind} {x : Descent σ ε α} (h : kinds ⊆ kinds')
    (hx : x.RefusesOnly kinds) : x.RefusesOnly kinds' :=
  fun kind loc found he => h (hx kind loc found he)

end Descent.RefusesOnly

section RefusesOnly

variable {σ ε : Type} [TokenSource σ ε]

namespace Reader

/-- Taking a token is refused only for want of this token. -/
lemma refusesOnly_eat (kind : Kind) (r : Reader σ) : (r.eat kind).RefusesOnly [kind] := by
  rintro kind' loc found h
  unfold eat at h
  split at h
  · simp_all
  · split at h
    · simp_all
    · cases hadvance : TokenSource.next r.source with
      | mk item source => cases item <;> simp [advance, hadvance, Descent.bind] at h

/-- Taking a token that has been looked at is not refused for want of it. -/
lemma refusesOnly_eat_of_lookahead {r : Reader σ} {t : Token} (ht : r.lookahead = some t) :
    (r.eat t.kind).RefusesOnly [] := by
  rintro kind loc found h
  simp only [eat, ht, ne_eq, not_true_eq_false, if_false, advance] at h
  cases hadvance : TokenSource.next r.source with
  | mk item source => cases item <;> simp [hadvance, Descent.bind] at h

end Reader

namespace Production

open Reader

/-- A literal is looked at before it is taken. -/
lemma refusesOnly_literal (r : Reader σ) : (literal.read r).RefusesOnly [] := by
  change (Reader.literal r).RefusesOnly []
  unfold Reader.literal
  split
  · exact .literal _ _ _
  · next t ht =>
    split
    · next hk => exact (hk ▸ refusesOnly_eat_of_lookahead ht).bind fun _ _ => .ok _ _
    · next hk => exact (hk ▸ refusesOnly_eat_of_lookahead ht).bind fun _ _ => .ok _ _
    · exact .literal _ _ _

/-- An operator is looked at before it is taken. -/
lemma refusesOnly_chainRest {ops : List Text} {operand : Production σ ε}
    (hoperand : ∀ r, (operand.read r).RefusesOnly []) (lhs : Expr) (r : Reader σ) :
    (chainRest ops operand lhs r).RefusesOnly [] := by
  fun_induction chainRest ops operand lhs r with
  | case1 lhs r hcheck e r₁ heat =>
    obtain ⟨t, ht, hk, -⟩ := checkOperator_eq_true_iff.1 hcheck
    rintro kind loc found ⟨⟩
    refine (hk ▸ refusesOnly_eat_of_lookahead ht) kind loc found ?_
    rw [heat]
  | case2 lhs r hcheck op r₁ heat e r₂ hread =>
    rintro kind loc found ⟨⟩
    exact hoperand r₁ kind loc found (by rw [hread])
  | case3 _ _ _ _ _ _ _ _ _ ih => exact ih
  | case4 lhs r hcheck => exact .ok lhs r

lemma refusesOnly_chain {ops : List Text} {operand : Production σ ε}
    (hoperand : ∀ r, (operand.read r).RefusesOnly []) (r : Reader σ) :
    ((chain ops operand).read r).RefusesOnly [] :=
  (hoperand r).bind fun _ _ => refusesOnly_chainRest hoperand _ _

/-- No token of an expression is missed. -/
lemma refusesOnly_expression (r : Reader σ) : (expression.read r).RefusesOnly [] :=
  refusesOnly_chain (refusesOnly_chain refusesOnly_literal) r

end Production

namespace Reader

lemma refusesOnly_statement (r : Reader σ) : r.statement.RefusesOnly [.semicolon] :=
  ((Production.refusesOnly_expression r).mono (List.nil_subset _)).bind fun _ _ =>
    (refusesOnly_eat .semicolon _).bind fun _ _ => .ok _ _

lemma refusesOnly_statements (done : List Stmt) (r : Reader σ) :
    (r.statements done).RefusesOnly [.semicolon] := by
  fun_induction statements done r with
  | case1 done r e r₁ hread =>
    rintro kind loc found ⟨⟩
    exact refusesOnly_statement r kind loc found (by rw [hread])
  | case2 done r s r₁ hread hnone => exact .ok _ _
  | case3 done r s r₁ hread hsome ih => exact ih

lemma refusesOnly_program (r : Reader σ) : r.program.RefusesOnly [.semicolon] :=
  (refusesOnly_statements [] r).bind fun _ _ => .ok _ _

end Reader

/-- A parser is refused for want of a token only where a semicolon is due. -/
lemma eq_semicolon_of_descend {first : Fetch ε} {src : σ} {kind : Kind} {loc : Location}
    {found : Option Token} (h : (descend first src).1 = .error (.token kind loc found)) :
    kind = .semicolon := by
  cases first with
  | error e => cases h
  | ok lookahead => exact List.mem_singleton.1 (Reader.refusesOnly_program _ kind loc found h)

end RefusesOnly

end ExprLang
