import ExprLang.Proofs.Grammar.Lookahead
import ExprLang.Proofs.Lexical.Alignment
import ExprLang.Proofs.Lexical.Cut

/-!
# Where grammar errors point

A grammar error that has found a token points at the first byte of that token.  One that has found
the end of the input cannot: it points just past the last token, wherever the text itself ends.  The
machine keeps that location in its state, and every token sets it anew (`State.stop_of_run`).

The main statement is `location_of_grammarError`: both locations are the ones that follow from the
text before that place as a whole, and what is left behind the last token is comments and blanks.
-/

namespace ExprLang

/-- A step leaves the location just past its token. -/
lemma Step.stop_eq {s s' : State} {t : Token} (h : Step s t s') : s'.stop = t.stop := by
  cases h <;> rfl

/-- A run leaves the location just past its last token, or that of the start if there is none. -/
lemma State.stop_of_run {ts : List Token} {s : State} (h : State.start.feedAll ts = .ok s) :
    s.stop = (ts.getLast?.map Token.stop).getD .start := by
  induction h using State.run_induction with
  | start => rfl
  | step ts s t s' _ hstep _ => simp [hstep.stop_eq]

/-- A token that is refused is what the error points at. -/
lemma State.loc_of_feed {s : State} {t : Token} {e : GrammarError} (h : s.feed t = .error e) :
    e.loc = t.loc := by
  rcases State.feed_eq_error_iff.1 h with ⟨_, _, _, _, rfl⟩ | ⟨_, _, _, _, rfl⟩ <;> rfl

/-- An end that comes too early is found as such, and the error points just past the last token. -/
lemma State.loc_of_finish {s : State} {e : GrammarError} (h : s.finish = .error e) :
    e.found = none ∧ e.loc = s.stop := by
  rcases State.error_of_finish h with ⟨_, _, _, rfl⟩ | ⟨_, _, _, rfl⟩ <;> exact ⟨rfl, rfl⟩

/-- A text consists of comments and blanks. -/
def IsTrivia (t : Text) : Prop :=
  ∃ cut, IsCut cut t ∧ ∀ x ∈ cut, x.token? = none

/-- What a drain without tokens and without an error has gone over is comments and blanks. -/
lemma isTrivia_of_drain {c : Cursor} (h : c.drain = ([], none)) : IsTrivia c.rest := by
  have hnone : c.drain.2 = none := by rw [h]
  obtain ⟨cut, hcut⟩ := exists_isCut_of_drain hnone
  obtain ⟨ts, hts, hmap⟩ := hcut.exists_drain_eq
  obtain rfl : ts = [] := (congrArg Prod.fst (hts.symm.trans h))
  exact ⟨cut, hcut, List.filterMap_eq_nil_iff.1 hmap.symm⟩

/-- A token that some call on a text hands out, with the text before it and behind it. -/
structure IsReadAt (src : Text) (t : Token) (before behind : Text) : Prop where
  /-- Some call hands the token out and leaves what is behind it. -/
  call : ∃ n, (Cursor.ofText src).answer n = .ok (some t) ∧
    ((Cursor.ofText src).afterCalls (n + 1)).rest = behind
  standsIn : t.StandsIn src before behind

/-- The tokens of a drain are read where they stand. -/
lemma exists_isReadAt_of_drain {src : Text} {n : Nat} {t : Token}
    (h : (Cursor.ofText src).drain.1[n]? = some t) :
    ∃ before, IsReadAt src t before ((Cursor.ofText src).afterCalls (n + 1)).rest := by
  have hanswer := Cursor.answer_of_getElem?_drain h
  have hreach := Cursor.reaches_afterCalls (Cursor.ofText src) n
  obtain ⟨before, behind, hstands, hnext⟩ := (Cursor.standsIn_of_next hreach).1 t hanswer
  rw [← Cursor.afterCalls_succ] at hnext
  refine ⟨before, ⟨n, hanswer, rfl⟩, ?_⟩
  rw [hnext]
  exact hstands

/-- Behind the last token of a drain that ends with the text there are only comments and blanks. -/
lemma exists_isReadAt_of_getLast? {src : Text} {t : Token}
    (hdrain : (Cursor.ofText src).drain.2 = none)
    (h : (Cursor.ofText src).drain.1.getLast? = some t) :
    ∃ before behind, IsReadAt src t before behind ∧ IsTrivia behind := by
  have hne : (Cursor.ofText src).drain.1 ≠ [] := by
    intro hnil
    rw [hnil] at h
    cases h
  have hlength : (Cursor.ofText src).drain.1.length - 1 + 1 = (Cursor.ofText src).drain.1.length :=
    Nat.sub_add_cancel (List.length_pos_iff.2 hne)
  rw [List.getLast?_eq_getElem?] at h
  obtain ⟨before, hread⟩ := exists_isReadAt_of_drain h
  rw [hlength] at hread
  refine ⟨before, _, hread, isTrivia_of_drain ?_⟩
  rw [Cursor.drain_afterCalls (Nat.le_refl _), List.drop_length, hdrain]

/-- A grammar error of a text points at the first byte of the token that it has found.  If it has
found the end, the text has been cut into tokens, and the error points just past the last byte of
the last of them, behind which there are only comments and blanks; without any token it points at
the first line and column. -/
theorem location_of_grammarError {src : Text} {e : GrammarError}
    (h : parse src = .error (.grammar e)) :
    (∀ t, e.found = some t →
      e.loc = t.loc ∧ ∃ before behind, IsReadAt src t before behind ∧ e.loc = locate before) ∧
    (e.found = none → ∃ ts, tokenize src = .ok ts ∧
      ((ts = [] ∧ e.loc = ⟨1, 1⟩) ∨
        ∃ t before behind, ts.getLast? = some t ∧ IsReadAt src t before behind ∧
          IsTrivia behind ∧ e.loc = locate (before ++ t.value))) := by
  rw [parse_eq_conclude] at h
  rcases State.feedAll_or_finish_of_conclude h with hrun | ⟨hlast, s, hrun, hfinish⟩
  · -- a token has been refused
    obtain ⟨k, t, s, hk, -, hfeed⟩ := State.exists_of_feedAll_eq_error hrun
    have hfound := State.found_of_feed hfeed
    have hloc := State.loc_of_feed hfeed
    obtain ⟨before, hread⟩ := exists_isReadAt_of_drain hk
    refine ⟨?_, by simp [hfound]⟩
    intro t' ht'
    obtain rfl : t = t' := Option.some.inj (hfound.symm.trans ht')
    exact ⟨hloc, before, _, hread, hloc.trans hread.standsIn.loc⟩
  · -- the text has ended too early
    obtain ⟨hfound, hloc⟩ := State.loc_of_finish hfinish
    have hstop := State.stop_of_run hrun
    refine ⟨by simp [hfound], fun _ => ⟨_, tokenize_eq_ok_iff.2 (Prod.ext rfl hlast), ?_⟩⟩
    cases hts : (Cursor.ofText src).drain.1.getLast? with
    | none =>
      rw [hts] at hstop
      exact .inl ⟨List.getLast?_eq_none_iff.1 hts, hloc.trans hstop⟩
    | some t =>
      rw [hts] at hstop
      obtain ⟨before, behind, hread, htrivia⟩ := exists_isReadAt_of_getLast? hlast hts
      have hend : e.loc = locate (before ++ t.value) :=
        (hloc.trans hstop).trans hread.standsIn.stop
      exact .inr ⟨t, before, behind, rfl, hread, htrivia, hend⟩

/-- An error at the end of a string over two lines points behind the string and not behind the
comment, and an error at a token points over a broken character in the comment before it. -/
theorem location_of_unfinishedText :
    (∃ e, parse (utf8 "'\u00e9\n' //;") = .error (.grammar e) ∧ e.found = none ∧ e.loc = ⟨2, 2⟩ ∧
      ∃ ts, tokenize (utf8 "'\u00e9\n' //;") = .ok ts ∧
        ((ts = [] ∧ e.loc = ⟨1, 1⟩) ∨
          ∃ t before behind, ts.getLast? = some t ∧
            IsReadAt (utf8 "'\u00e9\n' //;") t before behind ∧ IsTrivia behind ∧
            e.loc = locate (before ++ t.value))) ∧
    ∃ e, parse ([0x31, 0x2F, 0x2A, 0xE2, 0x82] ++ utf8 "*/2") = .error (.grammar e) ∧
      e.found = some ⟨.number, utf8 "2", ⟨1, 8⟩⟩ ∧ e.loc = ⟨1, 8⟩ ∧
      ∃ before behind, IsReadAt ([0x31, 0x2F, 0x2A, 0xE2, 0x82] ++ utf8 "*/2")
        ⟨.number, utf8 "2", ⟨1, 8⟩⟩ before behind ∧ (⟨1, 8⟩ : Location) = locate before := by
  have hend : parse (utf8 "'\u00e9\n' //;") =
      .error (.grammar ⟨.endOfInput, ⟨2, 2⟩, [.semicolon], none⟩) := by
    decide +kernel
  have htoken : parse ([0x31, 0x2F, 0x2A, 0xE2, 0x82] ++ utf8 "*/2") =
      .error (.grammar ⟨.unexpectedToken, ⟨1, 8⟩, [.semicolon],
        some ⟨.number, utf8 "2", ⟨1, 8⟩⟩⟩) := by
    decide +kernel
  exact ⟨⟨_, hend, rfl, rfl, (location_of_grammarError hend).2 rfl⟩,
    _, htoken, rfl, rfl, ((location_of_grammarError htoken).1 _ rfl).2⟩

end ExprLang
