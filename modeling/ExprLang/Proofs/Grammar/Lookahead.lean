import ExprLang.Proofs.Grammar.Viable
import ExprLang.Proofs.Lexical.Drain
import ExprLang.Proofs.Lexical.Fits

/-!
# Parsing as the tokens come, and parsing all tokens

A parser on a text asks for a token only when it has taken the one before, so it may meet a grammar
error and never see a lexical error that lies further on, or meet the lexical error first.  Which of
the two it reports does not depend on when it asks.  A cursor delivers what its drain collects
(`Cursor.delivers_drain`), and the machine looks at a failure of its source only after it has taken
every token before it.

The main statement is `parse_agrees_tokenize`: a text that has tokens is parsed as the list of its
tokens is, and a text that has none is refused, with its lexical error if the tokens before that are
viable and with the grammar error of the first token that makes them not viable otherwise.
-/

namespace ExprLang

/-- A cursor delivers the tokens of its drain, and then the error that ends it or nothing. -/
lemma Cursor.delivers_drain (c : Cursor) : Delivers c c.drain.1 c.drain.2 := by
  unfold Cursor.drain
  -- the drain asks as a parser does: its recursion is the one of the delivery
  fun_induction Cursor.drainWith Rule.table c with
  | case1 c t h later ih => exact .token h ih
  | case2 c h => exact .done h
  | case3 c e h => exact .failed h

/-- A text is parsed by concluding what its cursor drains. -/
lemma parse_eq_conclude (src : Text) :
    parse src = State.start.conclude (Cursor.ofText src).drain.1 (Cursor.ofText src).drain.2 :=
  Parser.outcome_eq_conclude (Cursor.delivers_drain _)

/-- The tokens of a text are what its cursor delivers. -/
lemma delivers_of_tokenize_ok {src : Text} {ts : List Token} (h : tokenize src = .ok ts) :
    Delivers (Cursor.ofText src) ts none := by
  have hdrain := Cursor.delivers_drain (Cursor.ofText src)
  rwa [tokenize_eq_ok_iff.1 h] at hdrain

/-- The lexical error of a text is where the delivery of its cursor fails. -/
lemma delivers_of_tokenize_error {src : Text} {e : LexicalError} (h : tokenize src = .error e) :
    ∃ ts, Delivers (Cursor.ofText src) ts (some e) := by
  obtain ⟨ts, hts⟩ := tokenize_eq_error_iff.1 h
  have hdrain := Cursor.delivers_drain (Cursor.ofText src)
  rw [hts] at hdrain
  exact ⟨ts, hdrain⟩

section Failure

variable {σ ε : Type} [TokenSource σ ε] {src : σ} {ts : List Token} {e : ε}

/-- A failure of the source is reported if the tokens before it are viable. -/
lemma outcome_of_failed_of_viable (h : Delivers src ts (some e)) (hts : Viable ts) :
    Parser.outcome src = .error (.source e) := by
  obtain ⟨s, hs⟩ := viable_iff.1 hts
  rw [Parser.outcome_eq_conclude h, State.conclude_of_ok hs]

/-- A failure of the source is passed over if the tokens before it are not viable: then the error is
the one that belongs to the first token that makes them so, whatever follows. -/
lemma outcome_of_failed_of_not_viable (h : Delivers src ts (some e)) (hts : ¬ Viable ts) :
    ∃ k t g, ts[k]? = some t ∧ Viable (ts.take k) ∧ ¬ Viable (ts.take (k + 1)) ∧
      g.found = some t ∧
      (∀ rest, Parser.outcome (TokenStream.ofTokens (ts.take (k + 1) ++ rest)) =
        .error (.grammar g)) ∧
      Parser.outcome src = .error (.grammar g) := by
  cases hrun : State.start.feedAll ts with
  | ok s => exact absurd (viable_iff.2 ⟨s, hrun⟩) hts
  | error g =>
    obtain ⟨k, t, s, ht, hs, hg⟩ := State.exists_of_feedAll_eq_error hrun
    have htake := State.feedAll_take_succ_of_error ht hs hg
    refine ⟨k, t, g, ht, viable_iff.2 ⟨s, hs⟩, not_viable_of_error htake, State.found_of_feed hg,
      ?_, ?_⟩
    · intro rest
      rw [Parser.outcome_eq_conclude (TokenStream.delivers_ofTokens _)]
      exact State.conclude_of_error (State.feedAll_append_of_error htake rest) none
    · rw [Parser.outcome_eq_conclude h, State.conclude_of_error hrun]

end Failure

/-- A text that has tokens is parsed as a parser reads the list of them.  A text with a lexical
error is refused with this error if the tokens before it are viable, and otherwise with the grammar
error that a parser gives for the first token that makes them not viable; so it is never parsed. -/
theorem parse_agrees_tokenize (src : Text) :
    (∀ ts, tokenize src = .ok ts → ∃ result : Except GrammarError Program,
      Parser.outcome (TokenStream.ofTokens ts) = result.mapError .grammar ∧
        parse src = result.mapError .grammar) ∧
    (∀ e, tokenize src = .error e → ∃ ts, Delivers (Cursor.ofText src) ts (some e) ∧
      (Viable ts → parse src = .error (.source e)) ∧
      (¬ Viable ts → ∃ k t g, ts[k]? = some t ∧ Viable (ts.take k) ∧ ¬ Viable (ts.take (k + 1)) ∧
        g.found = some t ∧
        (∀ rest, Parser.outcome (TokenStream.ofTokens (ts.take (k + 1) ++ rest)) =
          .error (.grammar g)) ∧
        parse src = .error (.grammar g))) ∧
    ∀ e p, tokenize src = .error e → parse src ≠ .ok p := by
  have hfail : ∀ e, tokenize src = .error e → ∃ ts, Delivers (Cursor.ofText src) ts (some e) :=
    fun e => delivers_of_tokenize_error
  refine ⟨?_, ?_, ?_⟩
  · intro ts hts
    exact ⟨parseTokens ts, Parser.outcome_eq_parseTokens (TokenStream.delivers_ofTokens ts),
      Parser.outcome_eq_parseTokens (delivers_of_tokenize_ok hts)⟩
  · intro e he
    obtain ⟨ts, hts⟩ := hfail e he
    exact ⟨ts, hts, outcome_of_failed_of_viable hts, outcome_of_failed_of_not_viable hts⟩
  · intro e p he hp
    obtain ⟨ts, hts⟩ := hfail e he
    rw [parse_eq_outcome] at hp
    by_cases hviable : Viable ts
    · rw [outcome_of_failed_of_viable hts hviable] at hp
      cases hp
    · obtain ⟨k, t, g, -, -, -, -, -, hg⟩ := outcome_of_failed_of_not_viable hts hviable
      rw [hg] at hp
      cases hp

/-- A stray character behind a complete program is met and reported. -/
theorem parse_strayCharacter :
    ∃ e, tokenize (utf8 "1;@") = .error e ∧ e.near = utf8 "@" ∧
      ∀ p, parse (utf8 "1;@") ≠ .ok p := by
  have hnumber : firstCut? Rule.table (utf8 "1;@") = some (.number, utf8 "1", utf8 ";@") := by
    refine firstCut?_table_eq_some_iff.2 ⟨⟨by decide, List.forall_mem_singleton.2 rfl, ?_⟩, rfl⟩
    rintro b ⟨rfl⟩
    rfl
  have hsemicolon : firstCut? Rule.table (utf8 ";@") = some (.semicolon, utf8 ";", utf8 "@") :=
    firstCut?_table_eq_some_iff.2 ⟨rfl, rfl⟩
  have hstray : firstCut? Rule.table (utf8 "@") = none := by
    have hblanks : spanBlanks (utf8 "@") = ([], utf8 "@") := by
      refine spanBlanks_of_forall_not_prefix ?_
      rintro c hc ⟨r, hr⟩
      have hfirst : firstChar? (utf8 "@") = some c := firstChar?_eq_some_iff.2 ⟨r, hr.symm⟩
      have hat : firstChar? (utf8 "@") = some '@' := firstChar?_eq_some_iff.2 ⟨[], rfl⟩
      obtain rfl : '@' = c := Option.some.inj (hat.symm.trans hfirst)
      exact absurd hc (by decide)
    simp only [firstCut?, Rule.table, Rule.cut?, List.findSome?_cons, cutBlanks?, hblanks]
    rfl
  let loc := Location.start.after (utf8 "1")
  have htokenize : tokenize (utf8 "1;@") = .error ⟨loc.after (utf8 ";"), utf8 "@"⟩ := by
    refine tokenize_eq_error_iff.2 ⟨[⟨.number, utf8 "1", .start⟩, ⟨.semicolon, utf8 ";", loc⟩], ?_⟩
    rw [Cursor.drain, Cursor.drainWith_of_kind hnumber rfl, Cursor.drainWith_of_kind hsemicolon rfl,
      Cursor.drainWith_of_none hstray]
    rfl
  exact ⟨_, htokenize, rfl, fun p => (parse_agrees_tokenize _).2.2 _ p htokenize⟩

end ExprLang
