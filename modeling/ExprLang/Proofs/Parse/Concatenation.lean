import ExprLang.Proofs.Grammar.Lookahead
import ExprLang.Proofs.Grammar.Relocation
import ExprLang.Proofs.Lexical.Position

/-!
# One text behind another

A text that spells a program leaves nothing open: no comment, no string, and no slash with a star
behind it, which would be two operators in a row.  So a text on the lines behind it is read as it is
read alone (`Cursor.drain_append_lineFeed`), and the machine goes on from a state that differs from
its start only in the statements it has finished.

The main statement is `parse_append_lineFeed`: behind a program, a second program adds its
statements, comments and blanks add nothing, and any other text is refused for the reason for which
it is refused alone, as many lines further down as the first text takes up.
-/

namespace ExprLang

/-! ## Nothing is left open -/

/-- No operator is read behind an operator. -/
lemma Step.kind_ne_operator {s s₁ s₂ : State} {t t' : Token} (h : Step s t s₁) (h' : Step s₁ t' s₂)
    (ht : t.kind = .operator) : t'.kind ≠ .operator := by
  obtain ⟨sum, product, hfocus⟩ := h.focus_eq_operand_iff.2 (.inl ht)
  intro hoperator
  have hnone : t'.literal? = none := Token.literal?_eq_none_iff.2 (by simp [hoperator])
  cases h' with
  | literal he =>
    rw [hnone] at he
    cases he
  | product _ => cases hfocus
  | sum _ => cases hfocus
  | close _ => cases hfocus

/-- A lexeme still fits if the text goes on in a new line.  Blanks go on as well, and a slash may
have had a star behind it. -/
lemma Rule.Fits.append_lineFeed {rule : Rule} {l r : Text} (h : rule.Fits l r)
    (hblanks : rule ≠ .blanks) (hstar : rule = .operator → r.head? ≠ some 0x2A) (u : Text) :
    rule.Fits l (r ++ 0x0A :: u) := by
  have hhead : ∀ b, (r ++ 0x0A :: u).head? = some b → r.head? = some b ∨ b = 0x0A := by
    intro b hb
    cases r with
    | nil => exact .inr (by simpa using hb.symm)
    | cons b' r => exact .inl (by simpa using hb)
  cases rule with
  | lineComment =>
    obtain ⟨hbody, hend⟩ := h
    refine ⟨hbody, fun b hb => ?_⟩
    rcases hhead b hb with hr | rfl
    · exact hend b hr
    · decide
  | blockComment => exact h
  | blanks => exact absurd rfl hblanks
  | number =>
    obtain ⟨hne, hdigit, hend⟩ := h
    refine ⟨hne, hdigit, fun b hb => ?_⟩
    rcases hhead b hb with hr | rfl
    · exact hend b hr
    · decide
  | string => exact h
  | semicolon => exact h
  | operator =>
    obtain ⟨b, rfl, hb, hslash⟩ := h
    refine ⟨b, rfl, hb, fun hb' => ⟨fun hr => ?_, fun behind hr => ?_⟩⟩
    · rcases hhead _ hr with hr | hr
      · exact (hslash hb').1 hr
      · exact absurd hr (by decide)
    · rcases hhead 0x2A (by rw [hr]; rfl) with hr | hr
      · exact absurd hr (hstar rfl)
      · exact absurd hr (by decide)

/-- A run over a list that begins with a token takes this token first. -/
lemma State.exists_step_of_feedAll_cons {s s' : State} {t : Token} {ts : List Token}
    (h : s.feedAll (t :: ts) = .ok s') : ∃ s₁, Step s t s₁ ∧ s₁.feedAll ts = .ok s' := by
  rw [State.feedAll_cons] at h
  cases hfeed : s.feed t with
  | error e =>
    rw [hfeed] at h
    cases h
  | ok s₁ =>
    rw [hfeed] at h
    exact ⟨s₁, State.feed_eq_ok_iff.1 hfeed, h⟩

/-- Behind an operator that a run has taken, no star follows at once. -/
lemma Cursor.head?_rest_ne_star {c : Cursor} {s s₁ s' : State} {t : Token} (hstep : Step s t s₁)
    (ht : t.kind = .operator) (hrun : s₁.feedAll c.drain.1 = .ok s') :
    c.rest.head? ≠ some 0x2A := by
  obtain ⟨rest, loc⟩ := c
  intro hhead
  obtain ⟨behind, rfl⟩ := List.head?_eq_some_iff.1 hhead
  have hfits : Rule.Fits .operator [0x2A] behind :=
    ⟨0x2A, rfl, rfl, fun h => absurd h (by decide)⟩
  rw [← List.singleton_append, Cursor.drain_append_of_kind hfits rfl] at hrun
  obtain ⟨s₂, hstar, -⟩ := State.exists_step_of_feedAll_cons hrun
  exact hstep.kind_ne_operator hstar ht rfl

/-! ## Reading on in a new line -/

/-- The cursor in front of a text that begins on the line behind a cursor's own text. -/
def Cursor.below (c : Cursor) (u : Text) : Cursor :=
  ⟨u, ⟨c.loc.line + Int64.ofNat (c.rest.count 0x0A) + 1, 1⟩⟩

/-- What is below a text is below what a lexeme leaves of it. -/
lemma Cursor.below_append (l r u : Text) (loc : Location) :
    (⟨l ++ r, loc⟩ : Cursor).below u = (⟨r, loc.after l⟩ : Cursor).below u := by
  simp only [Cursor.below, Location.line_after, List.count_append, Int64.ofNat_add, Int64.add_assoc]

/-- A text whose tokens the machine takes is cut as before if more lines follow, and these are cut
as they are alone. -/
lemma Cursor.drain_append_lineFeed {c : Cursor} (hdrain : c.drain.2 = none) {s s' : State}
    (hrun : s.feedAll c.drain.1 = .ok s') (u : Text) :
    (⟨c.rest ++ 0x0A :: u, c.loc⟩ : Cursor).drain =
      (c.drain.1 ++ (c.below u).drain.1, (c.below u).drain.2) := by
  -- lexeme by lexeme; the state of the machine says which tokens may still come
  induction c using Cursor.cut_induction Rule.table generalizing s with
  | stuck c hnone =>
    rw [Cursor.drain, Cursor.drainWith_of_none hnone] at hdrain
    have hrest : c.rest = [] := by
      by_contra hne
      simp [hne] at hdrain
    obtain ⟨rest, loc⟩ := c
    obtain rfl : rest = [] := hrest
    have hblank := Cursor.drain_blank_append (c := '\n') (by decide) u loc
    rw [Location.past_lineFeed] at hblank
    have hbelow : (⟨[], loc⟩ : Cursor).below u = ⟨u, ⟨loc.line + 1, 1⟩⟩ := by simp [Cursor.below]
    rw [Cursor.drain_nil, hbelow]
    exact hblank
  | step c rule l r hfirst ih =>
    obtain ⟨hfits, happ⟩ := firstCut?_table_eq_some_iff.1 hfirst
    obtain ⟨rest, loc⟩ := c
    obtain rfl : l ++ r = rest := happ
    simp only [Cursor.past] at ih
    rw [List.append_assoc, Cursor.below_append]
    cases hk : rule.kind? with
    | none =>
      rw [Cursor.drain_append_of_skip hfits hk] at hdrain hrun ⊢
      have hskip : (⟨l ++ (r ++ 0x0A :: u), loc⟩ : Cursor).drain =
          (⟨r ++ 0x0A :: u, loc.after l⟩ : Cursor).drain := by
        by_cases hblanks : rule = .blanks
        · subst hblanks
          obtain ⟨⟨cs, -, rfl, hcs⟩, -⟩ := hfits
          exact Cursor.drain_ofChars_append hcs _ _
        · have hnot : rule ≠ .operator := by
            rintro rfl
            cases hk
          have hfits' := hfits.append_lineFeed hblanks (fun h => absurd h hnot) u
          exact Cursor.drain_append_of_skip hfits' hk loc
      rw [hskip]
      exact ih hdrain hrun
    | some kind =>
      rw [Cursor.drain_append_of_kind hfits hk] at hdrain hrun ⊢
      obtain ⟨s₁, hstep, hrun₁⟩ := State.exists_step_of_feedAll_cons hrun
      have hblanks : rule ≠ .blanks := by
        rintro rfl
        cases hk
      have hstar : rule = .operator → r.head? ≠ some 0x2A := by
        rintro rfl
        obtain rfl : Kind.operator = kind := Option.some.inj hk
        exact Cursor.head?_rest_ne_star hstep rfl hrun₁
      have hfits' := hfits.append_lineFeed hblanks hstar u
      rw [Cursor.drain_append_of_kind hfits' hk, ih hdrain hrun₁]
      rfl

/-! ## The machine behind a program -/

/-- The grammar error `d` lines further down. -/
def GrammarError.down (d : Nat) (e : GrammarError) : GrammarError :=
  ⟨e.cause, e.loc.down d, e.expected, e.found.map (Token.down d)⟩

/-- The fault `d` lines further down. -/
def Fault.down (d : Nat) : Fault LexicalError → Fault LexicalError
  | .source e => .source (e.down d)
  | .grammar e => .grammar (e.down d)

/-- Tokens and the same tokens further down are related. -/
lemma forall₂_moved_down (d : Nat) (ts : List Token) :
    List.Forall₂ (Token.Moved fun l l' => l' = l.down d) ts (ts.map (Token.down d)) := by
  rw [List.forall₂_map_right_iff, List.forall₂_same]
  intro t _
  exact ⟨rfl, rfl, rfl, t.stop_down d⟩

/-- A grammar error that is related to another one further down is that error further down. -/
lemma GrammarError.Moved.eq_down {d : Nat} {e e' : GrammarError}
    (h : e.Moved (fun l l' => l' = l.down d) e') : e' = e.down d := by
  obtain ⟨cause, loc, expected, found⟩ := e
  obtain ⟨cause', loc', expected', found'⟩ := e'
  obtain ⟨hcause, hloc, hexpected, hfound⟩ := h
  simp only at hcause hloc hexpected hfound
  subst hcause hloc hexpected
  cases hfound with
  | none => rfl
  | @some t t' ht =>
    obtain ⟨kind, value, loc⟩ := t'
    obtain ⟨hkind, hvalue, hloc, -⟩ := ht
    simp only at hkind hvalue hloc
    subst hkind hvalue hloc
    rfl

/-- After a token, the machine is not back at its start. -/
lemma State.statements_ne_nil_of_run {ts : List Token} {s : State}
    (h : State.start.feedAll ts = .ok s) (hts : ts ≠ []) (hfocus : s.focus = .operand none none) :
    s.statements ≠ [] := by
  induction h using State.run_induction with
  | start => exact absurd rfl hts
  | step ts s t s' _ hstep _ => cases hstep <;> simp_all

/-- A run that succeeds on the first part concludes as it does from where that ends. -/
lemma State.conclude_append_of_ok {s s' : State} {ts : List Token} (h : s.feedAll ts = .ok s')
    (us : List Token) (last : Option LexicalError) :
    s.conclude (ts ++ us) last = s'.conclude us last := by
  unfold State.conclude
  rw [State.feedAll_append_of_ok h]

/-- From a state at the end of a program, tokens and a failure further down are concluded as they
are from the start, unless there is neither. -/
lemma State.agree_conclude_down {s : State} {p : Program} (hs : s.finish = .ok p) (d : Nat)
    {ts : List Token} {last : Option LexicalError} (hne : ts ≠ [] ∨ last ≠ none) :
    Agree (fun q q' => q' = ⟨p.body ++ q.body⟩) (fun fault fault' => fault' = fault.down d)
      (State.start.conclude ts last)
      (s.conclude (ts.map (Token.down d)) (last.map (LexicalError.down d))) := by
  obtain ⟨hfocus, -, rfl⟩ := State.finish_eq_ok_iff.1 hs
  by_cases hts : ts = []
  · subst hts
    obtain ⟨e, rfl⟩ := Option.ne_none_iff_exists'.1 (hne.resolve_left (by simp))
    exact .error rfl
  have hstatements : s.statements = State.start.statements ++ s.statements := by
    simp [State.start]
  have hrun := State.agree_feedAll (forall₂_moved_down d ts) hstatements hfocus
    fun h => absurd h hts
  unfold State.conclude
  generalize hx : State.start.feedAll ts = x at hrun ⊢
  generalize s.feedAll (ts.map (Token.down d)) = y at hrun ⊢
  cases hrun with
  | error he => exact .error (congrArg Fault.grammar he.eq_down)
  | @ok s₁ s₂ hmoved =>
    cases last with
    | some e => exact .error rfl
    | none =>
      have hread : s₁.focus = .operand none none → s₁.statements = [] → s.statements = [] :=
        fun h h' => absurd h' (State.statements_ne_nil_of_run hx hts h)
      have hfinish := State.agree_finish hmoved hread
      simp only [Option.map_none]
      generalize s₁.finish = z at hfinish ⊢
      generalize s₂.finish = w at hfinish ⊢
      cases hfinish with
      | error he => exact .error (congrArg Fault.grammar he.eq_down)
      | ok hbody => exact .ok (congrArg Program.mk hbody)

/-! ## Texts behind a program -/

/-- A text on the lines behind a program is concluded from where the program ends. -/
lemma exists_parse_append_lineFeed {src₁ : Text} {p₁ : Program} (h : parse src₁ = .ok p₁)
    (src₂ : Text) :
    ∃ s : State, s.finish = .ok p₁ ∧
      parse (src₁ ++ utf8 "\n" ++ src₂) =
        s.conclude ((Cursor.ofText src₂).drain.1.map (Token.down (1 + src₁.count 0x0A)))
          ((Cursor.ofText src₂).drain.2.map (LexicalError.down (1 + src₁.count 0x0A))) := by
  rw [parse_eq_conclude] at h
  obtain ⟨hlast, s, hrun, hfinish⟩ := State.exists_of_conclude_eq_ok h
  refine ⟨s, hfinish, ?_⟩
  have hlines : src₁ ++ utf8 "\n" ++ src₂ = src₁ ++ 0x0A :: src₂ := by
    rw [List.append_assoc]
    rfl
  have hbelow : (Cursor.ofText src₁).below src₂ =
      ⟨src₂, Location.start.down (1 + src₁.count 0x0A)⟩ := by
    simp [Cursor.below, Cursor.ofText, Location.down, Location.start, Int64.ofNat_add,
      Int64.add_comm]
  have hdrain : (Cursor.ofText (src₁ ++ 0x0A :: src₂)).drain = _ :=
    Cursor.drain_append_lineFeed hlast hrun src₂
  have hdown := Cursor.drain_down (1 + src₁.count 0x0A) (Cursor.ofText src₂)
  rw [hbelow] at hdrain
  rw [parse_eq_conclude, hlines, hdrain, State.conclude_append_of_ok hrun]
  exact congrArg (fun x => s.conclude x.1 x.2) hdown

/-- On the lines behind a program, a second program adds its statements to it, a text without tokens
changes nothing, and any other text is refused with the fault that it has alone, each of its
locations as many lines further down as the program takes up. -/
theorem parse_append_lineFeed {src₁ : Text} {p₁ : Program} (h : parse src₁ = .ok p₁)
    (src₂ : Text) :
    (∀ p₂, parse src₂ = .ok p₂ →
      parse (src₁ ++ utf8 "\n" ++ src₂) = .ok ⟨p₁.body ++ p₂.body⟩) ∧
    (tokenize src₂ = .ok [] → parse (src₁ ++ utf8 "\n" ++ src₂) = .ok p₁) ∧
    ∀ fault, parse src₂ = .error fault → tokenize src₂ ≠ .ok [] →
      parse (src₁ ++ utf8 "\n" ++ src₂) = .error (fault.down (1 + src₁.count 0x0A)) := by
  obtain ⟨s, hfinish, hparse⟩ := exists_parse_append_lineFeed h src₂
  have hagree : tokenize src₂ ≠ .ok [] →
      Agree (fun p p' => p' = ⟨p₁.body ++ p.body⟩)
        (fun fault fault' => fault' = fault.down (1 + src₁.count 0x0A)) (parse src₂)
        (parse (src₁ ++ utf8 "\n" ++ src₂)) := by
    intro hne
    rw [hparse, parse_eq_conclude src₂]
    refine State.agree_conclude_down hfinish _ ?_
    by_contra hnot
    push Not at hnot
    exact hne (tokenize_eq_ok_iff.2 (Prod.ext hnot.1 hnot.2))
  have hnone : tokenize src₂ = .ok [] → ∃ e, parse src₂ = .error e := by
    intro hnil
    rw [parse_eq_conclude, tokenize_eq_ok_iff.1 hnil]
    exact ⟨_, rfl⟩
  refine ⟨?_, ?_, ?_⟩
  · intro p₂ hp₂
    have hne : tokenize src₂ ≠ .ok [] := by
      intro hnil
      obtain ⟨e, he⟩ := hnone hnil
      rw [hp₂] at he
      cases he
    have hboth := hagree hne
    rw [hp₂] at hboth
    obtain ⟨p, hp, rfl⟩ := hboth.exists_ok
    exact hp
  · intro hnil
    rw [hparse, tokenize_eq_ok_iff.1 hnil]
    simp [State.conclude, hfinish, Except.mapError]
  · intro fault hfault hne
    have hboth := hagree hne
    rw [hfault] at hboth
    obtain ⟨fault', hfault', rfl⟩ := hboth.exists_error
    exact hfault'

/-- An opening comment is two operators, also behind a program that ends in a comment, and the first
of them is refused in its own line. -/
theorem parse_openComment_below :
    parse (utf8 "1;//") = .ok ⟨[.expression (.number (.ofText (utf8 "1")))]⟩ ∧
      parse (utf8 "/*") = .error (.grammar ⟨.unexpectedLiteral, ⟨1, 1⟩, [.number, .string],
        some ⟨.operator, utf8 "/", ⟨1, 1⟩⟩⟩) ∧
      parse (utf8 "1;//\n/*") = .error (.grammar ⟨.unexpectedLiteral, ⟨2, 1⟩, [.number, .string],
        some ⟨.operator, utf8 "/", ⟨2, 1⟩⟩⟩) := by
  have hprogram : parse (utf8 "1;//") = .ok ⟨[.expression (.number (.ofText (utf8 "1")))]⟩ := by
    let loc := Location.start.after (utf8 "1")
    have hone : Rule.number.Fits (utf8 "1") (utf8 ";//") :=
      ⟨by decide, List.forall_mem_singleton.2 rfl, by rintro b ⟨rfl⟩; decide⟩
    have hend : Rule.semicolon.Fits (utf8 ";") (utf8 "//") := rfl
    have hempty : Rule.lineComment.Fits (utf8 "//") [] := ⟨⟨[], rfl, by simp⟩, by simp⟩
    have hnumber : (Cursor.ofText (utf8 "1;//")).drain = _ :=
      Cursor.drain_append_of_kind hone rfl .start
    have hsemicolon : (⟨utf8 ";//", loc⟩ : Cursor).drain = _ :=
      Cursor.drain_append_of_kind hend rfl loc
    have hcomment : (⟨utf8 "//", loc.after (utf8 ";")⟩ : Cursor).drain = _ :=
      Cursor.drain_append_of_skip hempty rfl (loc.after (utf8 ";"))
    rw [parse_eq_conclude, hnumber, hsemicolon, hcomment, Cursor.drain_nil]
    rfl
  have hslash : Rule.operator.Fits (utf8 "/") (utf8 "*") :=
    ⟨0x2F, rfl, rfl, fun _ => ⟨by decide, by rintro behind ⟨rfl⟩; decide⟩⟩
  have hdrain : (Cursor.ofText (utf8 "/*")).drain = _ :=
    Cursor.drain_append_of_kind hslash rfl .start
  have hfault : parse (utf8 "/*") = .error (.grammar ⟨.unexpectedLiteral, ⟨1, 1⟩,
      [.number, .string], some ⟨.operator, utf8 "/", ⟨1, 1⟩⟩⟩) := by
    rw [parse_eq_conclude, hdrain]
    rfl
  have hne : tokenize (utf8 "/*") ≠ .ok [] := by
    intro hnil
    rw [tokenize_eq_ok_iff, hdrain] at hnil
    cases hnil
  exact ⟨hprogram, hfault, (parse_append_lineFeed hprogram (utf8 "/*")).2.2 _ hfault hne⟩

end ExprLang
