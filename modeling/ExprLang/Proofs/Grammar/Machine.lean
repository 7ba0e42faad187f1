import ExprLang.Proofs.Grammar.Descent
import Mathlib.Data.List.Induction

/-!
# Runs of the grammar machine

`Step s t s'` says what feeding the token `t` can do to the machine, one constructor for each way in
which a token fits, and `feed_eq_ok_iff` says that these are all of them.  What holds of a run is
proved from what one step preserves by `State.run_induction`.

`Delivers src ts last` says what a token source answers: the tokens `ts` one by one, and then an
answer that is no token, the failure `last` or none.  A parser sees nothing else of its source:
`outcome_eq_conclude` reduces a new parser on any source to the run of the machine over the
delivered list.
-/

namespace ExprLang

/-! ## One step -/

/-- Feeding `t` takes the machine from the first state to the second. -/
inductive Step : State → Token → State → Prop
  /-- A literal becomes the operand that was due. -/
  | literal {stmts : List Stmt} {sum product : Option Pending} {loc : Location} {t : Token}
      {e : Expr} (h : t.literal? = some e) :
      Step ⟨stmts, .operand sum product, loc⟩ t
        ⟨stmts, .link sum (Pending.complete product e), t.stop⟩
  /-- An operator continues the product. -/
  | product {stmts : List Stmt} {sum : Option Pending} {e : Expr} {loc : Location} {t : Token}
      (h : t.link? = some .product) :
      Step ⟨stmts, .link sum e, loc⟩ t ⟨stmts, .operand sum (some ⟨e, t.value⟩), t.stop⟩
  /-- An operator closes the product and continues the sum. -/
  | sum {stmts : List Stmt} {sum : Option Pending} {e : Expr} {loc : Location} {t : Token}
      (h : t.link? = some .sum) :
      Step ⟨stmts, .link sum e, loc⟩ t
        ⟨stmts, .operand (some ⟨Pending.complete sum e, t.value⟩) none, t.stop⟩
  /-- A semicolon closes the statement. -/
  | close {stmts : List Stmt} {sum : Option Pending} {e : Expr} {loc : Location} {t : Token}
      (h : t.link? = some .close) :
      Step ⟨stmts, .link sum e, loc⟩ t
        ⟨.expression (Pending.complete sum e) :: stmts, .operand none none, t.stop⟩

namespace State

/-- The steps are exactly what feeding a token can do. -/
lemma feed_eq_ok_iff {s s' : State} {t : Token} : s.feed t = .ok s' ↔ Step s t s' := by
  obtain ⟨stmts, focus, loc⟩ := s
  constructor
  · intro h
    cases focus with
    | operand sum product =>
      cases he : t.literal? with
      | none => simp [feed, he] at h
      | some e =>
        obtain rfl : _ = s' := by simpa [feed, he] using h
        exact .literal he
    | link sum e =>
      cases hl : t.link? with
      | none => simp [feed, hl] at h
      | some l =>
        cases l with
        | product =>
          obtain rfl : _ = s' := by simpa [feed, hl] using h
          exact .product hl
        | sum =>
          obtain rfl : _ = s' := by simpa [feed, hl] using h
          exact .sum hl
        | close =>
          obtain rfl : _ = s' := by simpa [feed, hl] using h
          exact .close hl
  · intro h
    cases h with
    | literal he => simp [feed, he]
    | product hl => simp [feed, hl]
    | sum hl => simp [feed, hl]
    | close hl => simp [feed, hl]

/-- A token is refused where it is neither the literal nor the link that is due. -/
lemma feed_eq_error_iff {s : State} {t : Token} {e : GrammarError} :
    s.feed t = .error e ↔
      (∃ sum product, s.focus = .operand sum product ∧ t.literal? = none ∧
        e = literalExpected t.loc (some t)) ∨
      (∃ sum product, s.focus = .link sum product ∧ t.link? = none ∧
        e = ⟨.unexpectedToken, t.loc, [.semicolon], some t⟩) := by
  obtain ⟨stmts, focus, loc⟩ := s
  cases focus with
  | operand sum product => cases he : t.literal? <;> simp [feed, he, eq_comm]
  | link sum product =>
    cases hl : t.link? with
    | none => simp [feed, hl, eq_comm]
    | some l => cases l <;> simp [feed, hl]

/-- A refused token is what the error has found. -/
lemma found_of_feed {s : State} {t : Token} {e : GrammarError} (h : s.feed t = .error e) :
    e.found = some t := by
  rcases feed_eq_error_iff.1 h with ⟨_, _, _, _, rfl⟩ | ⟨_, _, _, _, rfl⟩ <;> rfl

/-- A program ends where no operand is due and a statement has been read. -/
lemma finish_eq_ok_iff {s : State} {p : Program} :
    s.finish = .ok p ↔
      s.focus = .operand none none ∧ s.statements ≠ [] ∧ p = ⟨s.statements.reverse⟩ := by
  obtain ⟨stmts, focus, loc⟩ := s
  cases focus with
  | operand sum product => cases sum <;> cases product <;> cases stmts <;> simp [finish, eq_comm]
  | link sum product => simp [finish]

/-- The end of the input is refused for want of a literal or of a semicolon. -/
lemma error_of_finish {s : State} {e : GrammarError} (h : s.finish = .error e) :
    (∃ sum product, s.focus = .operand sum product ∧ e = literalExpected s.stop none) ∨
      (∃ sum product, s.focus = .link sum product ∧
        e = ⟨.endOfInput, s.stop, [.semicolon], none⟩) := by
  obtain ⟨stmts, focus, loc⟩ := s
  cases focus with
  | operand sum product =>
    refine .inl ⟨sum, product, rfl, ?_⟩
    cases sum <;> cases product <;> cases stmts <;> simp_all [finish]
  | link sum product =>
    obtain rfl := Except.error.inj h
    exact .inr ⟨sum, product, rfl, rfl⟩

/-! ## Runs -/

@[simp] lemma feedAll_nil (s : State) : s.feedAll [] = .ok s := rfl

/-- A run begins with its first token. -/
lemma feedAll_cons (s : State) (t : Token) (ts : List Token) :
    s.feedAll (t :: ts) = s.feed t >>= (feedAll · ts) :=
  List.foldlM_cons

/-- A run over two lists is one run after the other. -/
lemma feedAll_append (s : State) (ts us : List Token) :
    s.feedAll (ts ++ us) = s.feedAll ts >>= (feedAll · us) :=
  List.foldlM_append

/-- A run that succeeds on the first part goes on from where that ends. -/
lemma feedAll_append_of_ok {s s' : State} {ts : List Token} (h : s.feedAll ts = .ok s')
    (us : List Token) : s.feedAll (ts ++ us) = s'.feedAll us := by
  rw [feedAll_append, h]
  rfl

/-- A run that fails on the first part fails at once. -/
lemma feedAll_append_of_error {s : State} {ts : List Token} {e : GrammarError}
    (h : s.feedAll ts = .error e) (us : List Token) : s.feedAll (ts ++ us) = .error e := by
  rw [feedAll_append, h]
  rfl

/-- A run of one token is a step. -/
lemma feedAll_singleton (s : State) (t : Token) : s.feedAll [t] = s.feed t := by
  rw [feedAll_cons]
  cases s.feed t <;> rfl

/-- A run goes through one more token by a step. -/
lemma feedAll_append_singleton {s s' s'' : State} {ts : List Token} {t : Token}
    (h : s.feedAll ts = .ok s') (ht : Step s' t s'') : s.feedAll (ts ++ [t]) = .ok s'' := by
  rw [feedAll_append_of_ok h, feedAll_singleton]
  exact feed_eq_ok_iff.2 ht

/-- What holds at the start and is kept by every step holds after every run. -/
@[elab_as_elim] lemma run_induction
    {motive : (ts : List Token) → (s : State) → State.start.feedAll ts = .ok s → Prop}
    (start : motive [] State.start rfl)
    (step : ∀ ts s t s' (h : State.start.feedAll ts = .ok s) (hstep : Step s t s'),
      motive ts s h → motive (ts ++ [t]) s' (feedAll_append_singleton h hstep))
    {ts : List Token} {s : State} (h : State.start.feedAll ts = .ok s) : motive ts s h := by
  induction ts using List.reverseRecOn generalizing s with
  | nil =>
    obtain rfl : State.start = s := Except.ok.inj h
    exact start
  | append_singleton ts t ih =>
    cases hs : State.start.feedAll ts with
    | error e => simp [feedAll_append_of_error hs] at h
    | ok s₀ =>
      have hfeed : s₀.feed t = .ok s := by
        rw [← feedAll_singleton, ← feedAll_append_of_ok hs]
        exact h
      exact step ts s₀ t s hs (feed_eq_ok_iff.1 hfeed) (ih hs)

/-- A run that fails does so at one token, behind a run that does not. -/
lemma exists_of_feedAll_eq_error {s : State} {ts : List Token} {e : GrammarError}
    (h : s.feedAll ts = .error e) :
    ∃ k t s', ts[k]? = some t ∧ s.feedAll (ts.take k) = .ok s' ∧ s'.feed t = .error e := by
  induction ts generalizing s with
  | nil => simp at h
  | cons t ts ih =>
    cases hs : s.feed t with
    | error e' =>
      rw [feedAll_cons, hs] at h
      obtain rfl : e' = e := Except.error.inj h
      exact ⟨0, t, s, rfl, rfl, hs⟩
    | ok s₁ =>
      have hcons : ∀ us, s.feedAll (t :: us) = s₁.feedAll us := by
        intro us
        rw [feedAll_cons, hs]
        rfl
      rw [hcons] at h
      obtain ⟨k, u, s', hk, hrun, hu⟩ := ih h
      refine ⟨k + 1, u, s', by simpa using hk, ?_, hu⟩
      rw [List.take_succ_cons, hcons]
      exact hrun

/-- A run that is refused a token fails on all that ends with this token. -/
lemma feedAll_take_succ_of_error {s s' : State} {ts : List Token} {k : Nat} {t : Token}
    {e : GrammarError} (ht : ts[k]? = some t) (hrun : s.feedAll (ts.take k) = .ok s')
    (he : s'.feed t = .error e) : s.feedAll (ts.take (k + 1)) = .error e := by
  have htake : ts.take (k + 1) = ts.take k ++ [t] := by
    rw [List.take_add_one, ht]
    rfl
  rw [htake, feedAll_append_of_ok hrun, feedAll_singleton, he]

end State

/-! ## Parsers and what their sources deliver -/

section Delivery

variable {σ ε : Type} [TokenSource σ ε]

/-- Asked again and again, a source hands out the tokens of a list and then answers that there is
none left, or fails. -/
inductive Delivers : σ → List Token → Option ε → Prop
  | done {src : σ} (h : (TokenSource.next src).1 = .ok none) : Delivers src [] none
  | failed {src : σ} {e : ε} (h : (TokenSource.next src).1 = .error e) : Delivers src [] (some e)
  | token {src : σ} {t : Token} {ts : List Token} {last : Option ε}
      (h : (TokenSource.next src).1 = .ok (some t))
      (hts : Delivers (TokenSource.next src).2 ts last) : Delivers src (t :: ts) last

/-- What a new parser on a source reads, or why it does not. -/
def Parser.descent (src : σ) : Except (Refusal ε) Program :=
  (descend (TokenSource.next src).1 (TokenSource.next src).2).1

/-- The outcome of a new parser on a source. -/
def Parser.outcome (src : σ) : Outcome ε :=
  ((Parser.create src).1.run (Parser.create src).2).1

/-- What the machine makes of a list of tokens and of the answer that ends it.  A token that does
not fit comes before a failure of the source. -/
def State.conclude (s : State) (ts : List Token) (last : Option ε) : Outcome ε :=
  match s.feedAll ts, last with
  | .error e, _ => .error (.grammar e)
  | .ok _, some e => .error (.source e)
  | .ok s', none => s'.finish.mapError .grammar

/-- The first token of a list is fed before the rest. -/
lemma State.conclude_cons (s : State) (t : Token) (ts : List Token) (last : Option ε) :
    s.conclude (t :: ts) last =
      match s.feed t with
      | .error e => .error (.grammar e)
      | .ok s' => s'.conclude ts last := by
  unfold State.conclude
  rw [State.feedAll_cons]
  cases s.feed t <;> rfl

/-- A token that does not fit decides, whatever ends the list. -/
lemma State.conclude_of_error {s : State} {ts : List Token} {e : GrammarError}
    (h : s.feedAll ts = .error e) (last : Option ε) : s.conclude ts last = .error (.grammar e) := by
  unfold State.conclude
  rw [h]

/-- If all tokens fit, a failure of the source decides. -/
lemma State.conclude_of_ok {s s' : State} {ts : List Token} (h : s.feedAll ts = .ok s') (e : ε) :
    s.conclude ts (some e) = .error (.source e) := by
  unfold State.conclude
  rw [h]

/-- A run concludes with a program if all tokens fit, no failure follows, and a program may end
there. -/
lemma State.exists_of_conclude_eq_ok {s : State} {ts : List Token} {last : Option ε}
    {p : Program} (h : s.conclude ts last = .ok p) :
    last = none ∧ ∃ s', s.feedAll ts = .ok s' ∧ s'.finish = .ok p := by
  unfold State.conclude at h
  cases hrun : s.feedAll ts with
  | error e =>
    rw [hrun] at h
    cases h
  | ok s' =>
    rw [hrun] at h
    cases last with
    | some e => cases h
    | none =>
      refine ⟨rfl, s', rfl, ?_⟩
      cases hfinish : s'.finish with
      | error e => simp [hfinish, Except.mapError] at h
      | ok p' => simpa [hfinish, Except.mapError] using h

/-- A run concludes with a grammar error if a token does not fit, or if all of them do and the input
ends too early. -/
lemma State.feedAll_or_finish_of_conclude {s : State} {ts : List Token} {last : Option ε}
    {e : GrammarError} (h : s.conclude ts last = .error (.grammar e)) :
    s.feedAll ts = .error e ∨
      (last = none ∧ ∃ s', s.feedAll ts = .ok s' ∧ s'.finish = .error e) := by
  unfold State.conclude at h
  cases hrun : s.feedAll ts with
  | error e' =>
    rw [hrun] at h
    obtain rfl : e' = e := Fault.grammar.inj (Except.error.inj h)
    exact .inl rfl
  | ok s' =>
    rw [hrun] at h
    cases last with
    | some e' => simp at h
    | none =>
      refine .inr ⟨rfl, s', rfl, ?_⟩
      cases hfinish : s'.finish with
      | error e' => simpa [hfinish, Except.mapError] using h
      | ok p => simp [hfinish, Except.mapError] at h

/-- Pulling tokens out of a source is feeding what it delivers. -/
lemma pull_of_delivers {src : σ} {ts : List Token} {last : Option ε} (h : Delivers src ts last)
    (s : State) :
    (pull s (TokenSource.next src).1 (TokenSource.next src).2).1 = s.conclude ts last := by
  -- along the delivery: each token is fed to the state that the tokens before it have left
  induction h generalizing s with
  | done h =>
    rw [h, pull]
    rfl
  | failed h =>
    rw [h, pull]
    rfl
  | token h _ ih =>
    rw [h, pull, State.conclude_cons]
    cases hs : s.feed _ with
    | error e => rfl
    | ok s' => exact ih s'

/-- A parser sees of its source what that delivers and nothing else. -/
lemma Parser.outcome_eq_conclude {src : σ} {ts : List Token} {last : Option ε}
    (h : Delivers src ts last) : Parser.outcome src = State.start.conclude ts last := by
  rw [Parser.outcome, Parser.create, Parser.run_fresh]
  exact pull_of_delivers h .start

/-- On a source that only runs out of tokens, a parser reads the delivered list. -/
lemma Parser.outcome_eq_parseTokens {src : σ} {ts : List Token} (h : Delivers src ts none) :
    Parser.outcome src = (parseTokens ts).mapError .grammar := by
  rw [Parser.outcome_eq_conclude h]
  unfold State.conclude parseTokens
  cases State.start.feedAll ts <;> rfl

/-- A parser returns a program exactly if the delivered list spells it. -/
lemma Parser.outcome_eq_ok_iff_parseTokens {src : σ} {ts : List Token} (h : Delivers src ts none)
    {p : Program} : Parser.outcome src = .ok p ↔ parseTokens ts = .ok p := by
  rw [Parser.outcome_eq_parseTokens h]
  cases parseTokens ts <;> simp [Except.mapError]

end Delivery

/-- The stream that hands out the tokens of a list. -/
def TokenStream.ofTokens (ts : List Token) : TokenStream := ⟨ts.map .token⟩

/-- Every list of tokens is what some source delivers. -/
lemma TokenStream.delivers_ofTokens (ts : List Token) : Delivers (ofTokens ts) ts none := by
  induction ts with
  | nil => exact .done rfl
  | cons t ts ih => exact .token rfl ih

/-- A text is parsed by a new parser on the cursor at its beginning. -/
lemma parse_eq_outcome (src : Text) : parse src = Parser.outcome (Cursor.ofText src) := rfl

end ExprLang
