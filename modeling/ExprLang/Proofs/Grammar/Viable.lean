import ExprLang.Proofs.Grammar.Spelling

/-!
# Viable beginnings and the first error

A list of tokens is *viable* if it is the beginning of a list that a parser accepts.  The machine
knows this at every token: a list is viable exactly if the machine takes all of it (`viable_iff`),
since from every state a number and a semicolon, or the semicolon alone, lead to the end of a
program.

So an error is reported at the first token that no continuation can save, or at the end of a list
that still could have gone on.  `IsFirstError` collects what the error then says, and the main
statement, `exists_isFirstError`, is that every parser that returns no program returns such an
error.
-/

namespace ExprLang

/-- A list of tokens that a parser reads as a program if nothing follows. -/
def Accepted (ts : List Token) : Prop :=
  ∃ p, Parser.outcome (TokenStream.ofTokens ts) = .ok p

/-- A list of tokens with which some accepted list begins. -/
def Viable (ts : List Token) : Prop :=
  ∃ rest, Accepted (ts ++ rest)

/-! ## The machine decides viability -/

/-- A list is accepted if the machine reads it as a program. -/
lemma accepted_iff {ts : List Token} : Accepted ts ↔ ∃ p, parseTokens ts = .ok p := by
  simp only [Accepted, Parser.outcome_eq_ok_iff_parseTokens (TokenStream.delivers_ofTokens ts)]

/-- Numbers and strings are taken where an operand is due. -/
lemma State.exists_step_of_literal {s : State} {sum product : Option Pending}
    (hs : s.focus = .operand sum product) {t : Token} (ht : t.kind ∈ [Kind.number, Kind.string]) :
    ∃ s' e, Step s t s' ∧ s'.focus = .link sum e := by
  obtain ⟨stmts, focus, loc⟩ := s
  obtain rfl : focus = .operand sum product := hs
  have hne : t.literal? ≠ none := fun hnone => Token.literal?_eq_none_iff.1 hnone ht
  obtain ⟨e, he⟩ := Option.ne_none_iff_exists'.1 hne
  exact ⟨_, _, .literal he, rfl⟩

/-- Semicolons are taken behind a product, and a program may end there. -/
lemma State.exists_step_of_semicolon {s : State} {sum : Option Pending} {e : Expr}
    (hs : s.focus = .link sum e) {t : Token} (ht : t.kind = .semicolon) :
    ∃ s' p, Step s t s' ∧ s'.finish = .ok p := by
  obtain ⟨stmts, focus, loc⟩ := s
  obtain rfl : focus = .link sum e := hs
  exact ⟨_, _, .close (Token.link?_eq_close_iff.2 ht), rfl⟩

/-- From every state some tokens lead to the end of a program. -/
lemma State.exists_feedAll_finish (s : State) :
    ∃ us s' p, s.feedAll us = .ok s' ∧ s'.finish = .ok p := by
  let number : Token := ⟨.number, [], .start⟩
  let semicolon : Token := ⟨.semicolon, [], .start⟩
  cases hs : s.focus with
  | operand sum product =>
    obtain ⟨s₁, e, hnumber, hs₁⟩ := State.exists_step_of_literal hs (t := number) (by simp [number])
    obtain ⟨s₂, p, hsemicolon, hp⟩ := State.exists_step_of_semicolon hs₁ (t := semicolon) rfl
    have hrun := State.feedAll_append_singleton (State.feedAll_nil s) hnumber
    exact ⟨_, s₂, p, State.feedAll_append_singleton hrun hsemicolon, hp⟩
  | link sum e =>
    obtain ⟨s₁, p, hsemicolon, hp⟩ := State.exists_step_of_semicolon hs (t := semicolon) rfl
    exact ⟨_, s₁, p, State.feedAll_append_singleton (State.feedAll_nil s) hsemicolon, hp⟩

/-- A list is viable exactly if the machine takes all of it. -/
lemma viable_iff {ts : List Token} : Viable ts ↔ ∃ s, State.start.feedAll ts = .ok s := by
  constructor
  · rintro ⟨rest, hrest⟩
    obtain ⟨p, hp⟩ := accepted_iff.1 hrest
    cases hs : State.start.feedAll ts with
    | error e =>
      rw [parseTokens, State.feedAll_append_of_error hs] at hp
      cases hp
    | ok s => exact ⟨s, rfl⟩
  · rintro ⟨s, hs⟩
    obtain ⟨us, s', p, hus, hp⟩ := s.exists_feedAll_finish
    refine ⟨us, accepted_iff.2 ⟨p, ?_⟩⟩
    rw [parseTokens, State.feedAll_append_of_ok hs, hus]
    exact hp

/-- What the machine refuses is not viable. -/
lemma not_viable_of_error {ts : List Token} {e : GrammarError}
    (h : State.start.feedAll ts = .error e) : ¬ Viable ts := by
  rw [viable_iff, h]
  rintro ⟨s, hs⟩
  cases hs

/-- Where a run takes one more token by a step, that token keeps the list viable. -/
lemma viable_append_of_step {ts : List Token} {s s' : State} {t : Token}
    (h : State.start.feedAll ts = .ok s) (ht : Step s t s') : Viable (ts ++ [t]) :=
  viable_iff.2 ⟨s', State.feedAll_append_singleton h ht⟩

/-! ## Where a literal is due -/

/-- A literal is due behind the first `k` tokens: there are none, or the last of them is an operator
or a semicolon. -/
def LiteralDue (ts : List Token) (k : Nat) : Prop :=
  k = 0 ∨ ∃ t, ts[k - 1]? = some t ∧ (t.kind = .operator ∨ t.kind = .semicolon)

/-- A step leads to where an operand is due exactly if its token is an operator or a semicolon. -/
lemma Step.focus_eq_operand_iff {s s' : State} {t : Token} (h : Step s t s') :
    (∃ sum product, s'.focus = .operand sum product) ↔
      t.kind = .operator ∨ t.kind = .semicolon := by
  cases h with
  | literal he =>
    have hkind : t.kind ∈ [Kind.number, Kind.string] := by
      by_contra hne
      rw [Token.literal?_eq_none_iff.2 hne] at he
      cases he
    rcases List.mem_pair.1 hkind with hk | hk <;> simp [hk]
  | product hl =>
    obtain ⟨op, -, hop⟩ := Token.link?_eq_product_iff.1 hl
    simp [hop.1]
  | sum hl =>
    obtain ⟨op, -, hop⟩ := Token.link?_eq_sum_iff.1 hl
    simp [hop.1]
  | close hl =>
    have hkind : t.kind = .semicolon := Token.link?_eq_close_iff.1 hl
    simp [hkind]

/-- After a run an operand is due at the start and behind operators and semicolons. -/
lemma focus_eq_operand_iff_getLast? {ts : List Token} {s : State}
    (h : State.start.feedAll ts = .ok s) :
    (∃ sum product, s.focus = .operand sum product) ↔
      ts = [] ∨ ∃ t, ts.getLast? = some t ∧ (t.kind = .operator ∨ t.kind = .semicolon) := by
  induction h using State.run_induction with
  | start => simp [State.start]
  | step ts s t s' _ hstep _ => simp [hstep.focus_eq_operand_iff]

/-- The machine is ready for an operand exactly where a literal is due. -/
lemma focus_eq_operand_iff {ts : List Token} {k : Nat} (hk : k ≤ ts.length) {s : State}
    (h : State.start.feedAll (ts.take k) = .ok s) :
    (∃ sum product, s.focus = .operand sum product) ↔ LiteralDue ts k := by
  rw [focus_eq_operand_iff_getLast? h, LiteralDue]
  cases k with
  | zero => simp
  | succ k =>
    have hget : (ts.take (k + 1)).getLast? = ts[k]? := by
      rw [List.getLast?_take, if_neg (Nat.succ_ne_zero k), Nat.add_sub_cancel,
        List.getElem?_eq_getElem hk, Option.some_or]
    have hne : ts.take (k + 1) ≠ [] := by
      intro hnil
      simp [List.getLast?_eq_none_iff.2 hnil, List.getElem?_eq_getElem hk] at hget
    simp [hget, hne]

/-! ## The first error -/

/-- What an error says that is reported behind the first `k` tokens of a list. -/
structure IsFirstError (ts : List Token) (k : Nat) (e : GrammarError) : Prop where
  /-- The tokens before it could have gone on to a program. -/
  viable : Viable (ts.take k)
  /-- It has found the first token that no continuation can save, or the end of the list. -/
  found : (∃ t, ts[k]? = some t ∧ e.found = some t ∧ ¬ Viable (ts.take (k + 1))) ∨
    (k = ts.length ∧ e.found = none)
  /-- Where a literal is due, it expects a number or a string. -/
  literal : LiteralDue ts k → e.cause = .unexpectedLiteral ∧ e.expected = [.number, .string]
  /-- Elsewhere it expects a semicolon, and its cause tells a token from the end. -/
  semicolon : ¬ LiteralDue ts k → e.expected = [.semicolon] ∧
    e.cause = if e.found.isSome then .unexpectedToken else .endOfInput
  /-- An unexpected token and an unexpected end are reported only where a semicolon is expected. -/
  only_semicolon : e.cause = .unexpectedToken ∨ e.cause = .endOfInput → e.expected = [.semicolon]
  /-- What it has found is not what it expects. -/
  kind_notMem : ∀ t, e.found = some t → t.kind ∉ e.expected
  /-- Any token of an expected kind could have stood there instead. -/
  repair : ∀ t, t.kind ∈ e.expected → Viable (ts.take k ++ [t])

/-- An error is the first one if it matches the state that the tokens before it have led to. -/
lemma isFirstError_of_run {ts : List Token} {k : Nat} {s : State} {e : GrammarError}
    (hk : k ≤ ts.length) (hrun : State.start.feedAll (ts.take k) = .ok s)
    (hfound : (∃ t, ts[k]? = some t ∧ e.found = some t ∧ ¬ Viable (ts.take (k + 1))) ∨
      (k = ts.length ∧ e.found = none))
    (hkind : ∀ t, e.found = some t → t.kind ∉ e.expected)
    (hfocus : (∃ sum product, s.focus = .operand sum product ∧
        e.cause = .unexpectedLiteral ∧ e.expected = [.number, .string]) ∨
      (∃ sum product, s.focus = .link sum product ∧ e.expected = [.semicolon] ∧
        e.cause = if e.found.isSome then .unexpectedToken else .endOfInput)) :
    IsFirstError ts k e := by
  have hdue := focus_eq_operand_iff hk hrun
  rcases hfocus with ⟨sum, product, hs, hcause, hexpected⟩ | ⟨sum, product, hs, hexpected, hcause⟩
  · refine ⟨viable_iff.2 ⟨s, hrun⟩, hfound, fun _ => ⟨hcause, hexpected⟩, ?_, ?_, hkind, ?_⟩
    · intro hnot
      exact absurd (hdue.1 ⟨sum, product, hs⟩) hnot
    · simp [hcause]
    · intro t ht
      rw [hexpected] at ht
      obtain ⟨s', e', hstep, -⟩ := State.exists_step_of_literal hs ht
      exact viable_append_of_step hrun hstep
  · refine ⟨viable_iff.2 ⟨s, hrun⟩, hfound, ?_, fun _ => ⟨hexpected, hcause⟩, fun _ => hexpected,
      hkind, ?_⟩
    · intro hlit
      obtain ⟨sum', product', hs'⟩ := hdue.2 hlit
      rw [hs] at hs'
      cases hs'
    · intro t ht
      rw [hexpected] at ht
      obtain ⟨s', p, hstep, -⟩ := State.exists_step_of_semicolon hs (List.mem_singleton.1 ht)
      exact viable_append_of_step hrun hstep

/-- The error of a refused token is the first one. -/
lemma isFirstError_of_feed {ts : List Token} {k : Nat} {t : Token} {s : State} {e : GrammarError}
    (ht : ts[k]? = some t) (hrun : State.start.feedAll (ts.take k) = .ok s)
    (he : s.feed t = .error e) : IsFirstError ts k e := by
  have hk : k < ts.length := (List.getElem?_eq_some_iff.1 ht).1
  have hnot : ¬ Viable (ts.take (k + 1)) :=
    not_viable_of_error (State.feedAll_take_succ_of_error ht hrun he)
  rcases State.feed_eq_error_iff.1 he with
    ⟨sum, product, hs, hnone, rfl⟩ | ⟨sum, product, hs, hnone, rfl⟩
  · refine isFirstError_of_run (Nat.le_of_lt hk) hrun (.inl ⟨t, ht, rfl, hnot⟩) ?_
      (.inl ⟨sum, product, hs, rfl, rfl⟩)
    rintro u ⟨rfl⟩
    exact Token.literal?_eq_none_iff.1 hnone
  · refine isFirstError_of_run (Nat.le_of_lt hk) hrun (.inl ⟨t, ht, rfl, hnot⟩) ?_
      (.inr ⟨sum, product, hs, rfl, rfl⟩)
    rintro u ⟨rfl⟩ hmem
    have hclose := Token.link?_eq_close_iff.2 (List.mem_singleton.1 hmem)
    rw [hnone] at hclose
    cases hclose

/-- The error of an end that comes too early is the first one. -/
lemma isFirstError_of_finish {ts : List Token} {s : State} {e : GrammarError}
    (hrun : State.start.feedAll ts = .ok s) (he : s.finish = .error e) :
    IsFirstError ts ts.length e := by
  have hrun' : State.start.feedAll (ts.take ts.length) = .ok s := by rwa [List.take_length]
  rcases State.error_of_finish he with ⟨sum, product, hs, rfl⟩ | ⟨sum, product, hs, rfl⟩
  · exact isFirstError_of_run (Nat.le_refl _) hrun' (.inr ⟨rfl, rfl⟩) (fun _ h => nomatch h)
      (.inl ⟨sum, product, hs, rfl, rfl⟩)
  · exact isFirstError_of_run (Nat.le_refl _) hrun' (.inr ⟨rfl, rfl⟩) (fun _ h => nomatch h)
      (.inr ⟨sum, product, hs, rfl, rfl⟩)

/-- A list that is not read as a program has a first error, and this is the one that is reported. -/
lemma isFirstError_of_parseTokens {ts : List Token} {e : GrammarError}
    (h : parseTokens ts = .error e) : ∃ k, IsFirstError ts k e := by
  cases hrun : State.start.feedAll ts with
  | error e' =>
    rw [parseTokens, hrun] at h
    obtain rfl : e' = e := Except.error.inj h
    obtain ⟨k, t, s, ht, hs, he⟩ := State.exists_of_feedAll_eq_error hrun
    exact ⟨k, isFirstError_of_feed ht hs he⟩
  | ok s =>
    rw [parseTokens, hrun] at h
    exact ⟨ts.length, isFirstError_of_finish hrun h⟩

/-- An error of a new parser is that of what its descent is refused for, and if that is a token, then
it is a semicolon. -/
lemma Parser.exists_refusal {σ ε : Type} [TokenSource σ ε] {src : σ} {e : GrammarError}
    (h : Parser.outcome src = .error (.grammar e)) :
    ∃ x, Parser.descent src = .error x ∧ x.fault = .grammar e ∧
      ∀ kind loc found, x = .token kind loc found → kind = .semicolon := by
  change (Parser.descent src).mapError Refusal.fault = _ at h
  cases hx : Parser.descent src with
  | ok p =>
    rw [hx] at h
    cases h
  | error x =>
    rw [hx] at h
    refine ⟨x, rfl, Except.error.inj h, ?_⟩
    rintro kind loc found rfl
    exact eq_semicolon_of_descend hx

/-- A parser that returns no program returns the first error: the tokens before it could have gone
on to a program, the token it has found takes every such way away unless it is the end, and what it
expects is decided by the token before and would have kept a way open.  What its descent is refused
for is a literal or a semicolon. -/
theorem exists_isFirstError {σ ε : Type} [TokenSource σ ε] {src : σ} {ts : List Token}
    (h : Delivers src ts none) (hno : ∀ p, Parser.outcome src ≠ .ok p) :
    ∃ e k, Parser.outcome src = .error (.grammar e) ∧ IsFirstError ts k e ∧
      ∃ x, Parser.descent src = .error x ∧ x.fault = .grammar e ∧
        ∀ kind loc found, x = .token kind loc found → kind = .semicolon := by
  have houtcome := Parser.outcome_eq_parseTokens h
  cases hp : parseTokens ts with
  | ok p =>
    rw [hp] at houtcome
    exact absurd houtcome (hno p)
  | error e =>
    rw [hp] at houtcome
    obtain ⟨k, hk⟩ := isFirstError_of_parseTokens hp
    exact ⟨e, k, houtcome, hk, Parser.exists_refusal houtcome⟩

/-- A statement, and then a number with an operator behind it that no rank knows. -/
def strayTokens : List Token :=
  [⟨.string, utf8 "'a'", ⟨1, 1⟩⟩, ⟨.semicolon, utf8 ";", ⟨1, 4⟩⟩, ⟨.number, utf8 "1", ⟨1, 5⟩⟩,
    ⟨.operator, utf8 "%", ⟨1, 6⟩⟩, ⟨.ofCode 11, [], ⟨1, 7⟩⟩]

/-- A parser reports the unknown operator, not what follows it. -/
theorem exists_isFirstError_strayTokens :
    (∀ p, Parser.outcome (TokenStream.ofTokens strayTokens) ≠ .ok p) ∧
      ∃ e k, Parser.outcome (TokenStream.ofTokens strayTokens) = .error (.grammar e) ∧
        IsFirstError strayTokens k e ∧
        ∃ x, Parser.descent (TokenStream.ofTokens strayTokens) = .error x ∧ x.fault = .grammar e ∧
          ∀ kind loc found, x = .token kind loc found → kind = .semicolon := by
  have hsource := TokenStream.delivers_ofTokens strayTokens
  have herror : parseTokens strayTokens =
      .error ⟨.unexpectedToken, ⟨1, 6⟩, [.semicolon], some ⟨.operator, utf8 "%", ⟨1, 6⟩⟩⟩ := rfl
  have hno : ∀ p, Parser.outcome (TokenStream.ofTokens strayTokens) ≠ .ok p := by
    intro p hp
    rw [Parser.outcome_eq_ok_iff_parseTokens hsource, herror] at hp
    cases hp
  exact ⟨hno, exists_isFirstError hsource hno⟩

end ExprLang
