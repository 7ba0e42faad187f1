import ExprLang.Proofs.Lexical.Alignment
import ExprLang.Proofs.Lexical.Cut

/-!
# Where a text cannot be cut any further

A text is stuck if it has not ended and no lexeme can start at its front: it begins with no blank,
no digit, no semicolon and no operator, and if it begins with a quote, that quote is never closed.
No rule applies to a text exactly if it is stuck or empty (`firstCut?_eq_none_iff`).  The comments
need no condition of their own, since they begin with an operator.

`Leaves cut src rest` says that the lexemes of `cut` come off the front of `src` and leave `rest`.
These rests are the places where a cursor comes to (`Cursor.reaches_iff_leaves`), and a drain ends
in the same way from each of them (`Cursor.Reaches.drain_eq`).  The main statement is
`tokenize_error_exact`: reading a text fails where lexemes leave a stuck rest, and nowhere else.
-/

namespace ExprLang

/-- The text has not ended, and no lexeme starts at its front. -/
structure IsStuck (t : Text) : Prop where
  ne_nil : t ≠ []
  not_blank : ∀ c, isBlank c → ¬ String.utf8EncodeChar c <+: t
  not_digit : ∀ b, t.head? = some b → isDigit b = false
  not_semicolon : ∀ b, t.head? = some b → isSemicolon b = false
  not_operator : ∀ b, t.head? = some b → isOperator b = false
  /-- A quote at the front does not occur again. -/
  unclosed : ∀ q u, t = q :: u → isQuote q → q ∉ u

/-! ## Where a rule does not apply -/

/-- No blanks are cut off exactly where none stands. -/
lemma cutBlanks?_eq_none_iff {t : Text} :
    cutBlanks? t = none ↔ ∀ c, isBlank c → ¬ String.utf8EncodeChar c <+: t := by
  constructor
  · rintro h c hc ⟨r, rfl⟩
    rw [cutBlanks?, spanBlanks_utf8EncodeChar_append hc] at h
    simp [String.utf8EncodeChar_ne_nil] at h
  · intro h
    rw [cutBlanks?, spanBlanks_of_forall_not_prefix h, if_pos rfl]

/-- No digits are cut off exactly where none stands. -/
lemma cutNumber?_eq_none_iff {t : Text} :
    cutNumber? t = none ↔ ∀ b, t.head? = some b → isDigit b = false := by
  cases t with
  | nil => simp [cutNumber?]
  | cons b u =>
    cases hb : isDigit b with
    | false => simp [cutNumber?, hb]
    | true => simp [cutNumber?, hb]

/-- No byte of a class is cut off exactly where none stands. -/
lemma cutByte?_eq_none_iff {p : UInt8 → Bool} {t : Text} :
    cutByte? p t = none ↔ ∀ b, t.head? = some b → p b = false := by
  cases t with
  | nil => simp [cutByte?]
  | cons b u => simp [cutByte?]

/-- No string is cut off exactly where no quote stands or the quote is not closed. -/
lemma cutString?_eq_none_iff {t : Text} :
    cutString? t = none ↔ ∀ q u, t = q :: u → isQuote q → q ∉ u := by
  constructor
  · rintro h q u rfl hq hmem
    obtain ⟨body, behind, rfl, hbody⟩ := List.eq_append_cons_of_mem hmem
    have hfits : Rule.Fits .string (q :: (body ++ [q])) behind := ⟨q, body, rfl, hq, hbody⟩
    have hcut := hfits.cut?
    simp only [Rule.cut?, List.cons_append, List.append_assoc, List.nil_append] at hcut
    rw [h] at hcut
    cases hcut
  · intro h
    apply Option.eq_none_iff_forall_ne_some.2
    rintro ⟨l, r⟩ hcut
    obtain ⟨⟨q, body, rfl, hq, -⟩, rfl⟩ := cutString?_eq_some_iff.1 hcut
    exact h q (body ++ [q] ++ r) rfl hq (by simp)

/-- Where no operator stands, no comment begins. -/
lemma cutComment?_eq_none {t : Text} (h : ∀ b, t.head? = some b → isOperator b = false) :
    cutLineComment? t = none ∧ cutBlockComment? t = none := by
  have hslash (u : Text) : t ≠ 0x2F :: u := by
    rintro rfl
    exact absurd (h 0x2F rfl) (by decide)
  constructor
  · unfold cutLineComment?
    split
    · next u => exact absurd rfl (hslash (0x2F :: u))
    · rfl
  · unfold cutBlockComment?
    split
    · next u => exact absurd rfl (hslash (0x2A :: u))
    · rfl

/-- The table finds nothing exactly if no rule applies. -/
lemma firstCut?_table_eq_none_iff {t : Text} :
    firstCut? Rule.table t = none ↔ ∀ rule : Rule, rule.cut? t = none := by
  rw [firstCut?, List.findSome?_eq_none_iff]
  constructor
  · intro h rule
    exact Option.map_eq_none_iff.1 (h rule rule.mem_table)
  · intro h rule _
    exact Option.map_eq_none_iff.2 (h rule)

/-- No rule applies to a text that has not ended exactly if it is stuck. -/
lemma firstCut?_eq_none_iff {t : Text} (ht : t ≠ []) :
    firstCut? Rule.table t = none ↔ IsStuck t := by
  rw [firstCut?_table_eq_none_iff]
  constructor
  · intro h
    exact ⟨ht, cutBlanks?_eq_none_iff.1 (h .blanks), cutNumber?_eq_none_iff.1 (h .number),
      cutByte?_eq_none_iff.1 (h .semicolon), cutByte?_eq_none_iff.1 (h .operator),
      cutString?_eq_none_iff.1 (h .string)⟩
  · intro h rule
    cases rule with
    | lineComment => exact (cutComment?_eq_none h.not_operator).1
    | blockComment => exact (cutComment?_eq_none h.not_operator).2
    | blanks => exact cutBlanks?_eq_none_iff.2 h.not_blank
    | number => exact cutNumber?_eq_none_iff.2 h.not_digit
    | string => exact cutString?_eq_none_iff.2 h.unclosed
    | semicolon => exact cutByte?_eq_none_iff.2 h.not_semicolon
    | operator => exact cutByte?_eq_none_iff.2 h.not_operator

/-! ## What lexemes leave -/

/-- The lexemes stand one after another at the front of a text, each fits there, and they leave a
rest. -/
def Leaves : List Lexeme → Text → Text → Prop
  | [], src, rest => src = rest
  | x :: cut, src, rest => ∃ r, x.text ++ r = src ∧ x.rule.Fits x.text r ∧ Leaves cut r rest

/-- Lexemes and the rest that they leave are the text. -/
lemma Leaves.flatMap_text_append {cut : List Lexeme} {src rest : Text} (h : Leaves cut src rest) :
    cut.flatMap Lexeme.text ++ rest = src := by
  induction cut generalizing src with
  | nil => exact h.symm
  | cons x cut ih =>
    obtain ⟨r, rfl, -, hcut⟩ := h
    rw [List.flatMap_cons, List.append_assoc, ih hcut]

namespace Cursor

variable {c c' : Cursor} {src : Text}

/-- A cursor leaves lexemes behind. -/
lemma Reaches.exists_leaves (h : c.Reaches c') : ∃ cut, Leaves cut c.rest c'.rest := by
  induction h with
  | refl c => exact ⟨[], rfl⟩
  | @cut c c' rule l r hfirst _ ih =>
    obtain ⟨hfits, hrest⟩ := firstCut?_table_eq_some_iff.1 hfirst
    obtain ⟨cut, hcut⟩ := ih
    exact ⟨⟨rule, l⟩ :: cut, r, hrest, hfits, hcut⟩

/-- A cursor comes to every rest that lexemes leave. -/
lemma exists_reaches_of_leaves {cut : List Lexeme} {rest : Text} (h : Leaves cut c.rest rest) :
    ∃ loc, c.Reaches ⟨rest, loc⟩ := by
  induction cut generalizing c with
  | nil =>
    obtain rfl : c.rest = rest := h
    exact ⟨c.loc, .refl c⟩
  | cons x cut ih =>
    obtain ⟨rule, l⟩ := x
    obtain ⟨r, hrest, hfits, hcut⟩ := h
    have hfirst : firstCut? Rule.table c.rest = some (rule, l, r) :=
      firstCut?_table_eq_some_iff.2 ⟨hfits, hrest⟩
    have hpast : Leaves cut (c.past l r).rest rest := hcut
    obtain ⟨loc, hreach⟩ := ih hpast
    exact ⟨loc, .cut hfirst hreach⟩

/-- The places where a cursor on a text comes to are those behind lexemes. -/
lemma reaches_iff_leaves : (ofText src).Reaches c ↔
    ∃ cut, Leaves cut src c.rest ∧ c.loc = locate (cut.flatMap Lexeme.text) := by
  -- what has been read is what the lexemes are made of
  have hread {cut : List Lexeme} {c : Cursor} (hcut : Leaves cut src c.rest)
      (hreach : (ofText src).Reaches c) : c.loc = locate (cut.flatMap Lexeme.text) := by
    obtain ⟨read, hstands⟩ := exists_standsIn_of_reaches hreach
    have happ : read ++ c.rest = cut.flatMap Lexeme.text ++ c.rest :=
      hstands.text.trans hcut.flatMap_text_append.symm
    rw [hstands.loc, List.append_cancel_right happ]
  constructor
  · intro h
    obtain ⟨cut, hcut⟩ := h.exists_leaves
    exact ⟨cut, hcut, hread hcut h⟩
  · rintro ⟨cut, hcut, hloc⟩
    obtain ⟨loc, hreach⟩ := exists_reaches_of_leaves (c := ofText src) hcut
    have hloc' : loc = locate (cut.flatMap Lexeme.text) := hread (c := ⟨c.rest, loc⟩) hcut hreach
    obtain rfl : c.loc = loc := hloc.trans hloc'.symm
    exact hreach

/-! ## How a drain ends -/

/-- A drain ends in the same way from wherever the cursor comes to. -/
lemma Reaches.drain_eq (h : c.Reaches c') : c.drain.2 = c'.drain.2 := by
  induction h with
  | refl c => rfl
  | @cut c c' rule l r hfirst _ ih =>
    rw [← ih, drain, drain]
    cases hk : rule.kind? with
    | none => rw [drainWith_of_skip hfirst hk]
    | some kind => rw [drainWith_of_kind hfirst hk]

/-- A drain ends in an error at a stuck rest. -/
lemma drain_of_isStuck (h : IsStuck c.rest) : c.drain.2 = some ⟨c.loc, c.rest⟩ := by
  have hnone := (firstCut?_eq_none_iff h.ne_nil).2 h
  rw [drain, drainWith_of_none hnone, if_neg h.ne_nil]

/-- A drain that ends in an error has come to a stuck rest. -/
lemma exists_reaches_of_drain {e : LexicalError} (h : c.drain.2 = some e) :
    c.Reaches ⟨e.near, e.loc⟩ ∧ IsStuck e.near := by
  induction c using cut_induction Rule.table with
  | stuck c hnone =>
    rw [drain, drainWith_of_none hnone] at h
    split_ifs at h with hrest
    obtain rfl := Option.some.inj h
    exact ⟨.refl c, (firstCut?_eq_none_iff hrest).1 hnone⟩
  | step c rule l r hfirst ih =>
    have hstep : c.Reaches (c.past l r) := .cut hfirst (.refl _)
    rw [hstep.drain_eq] at h
    obtain ⟨hreach, hstuck⟩ := ih h
    exact ⟨hstep.trans hreach, hstuck⟩

end Cursor

/-- Reading a text fails with the error that ends its drain. -/
lemma tokenize_eq_error_iff_drain {src : Text} {e : LexicalError} :
    tokenize src = .error e ↔ (Cursor.ofText src).drain.2 = some e := by
  rw [tokenize_eq_error_iff]
  constructor
  · rintro ⟨ts, hdrain⟩
    rw [hdrain]
  · intro h
    exact ⟨_, Prod.ext rfl h⟩

/-! ## Exactness -/

/-- If reading a text fails, then lexemes fill the text up to the place of the error, and what they
leave is stuck and is all that the error holds.  Wherever lexemes leave a rest, reading fails there
with all of the rest exactly if the rest is stuck; and reading succeeds exactly if they never leave
a stuck one.  The rests that lexemes leave are the places where a cursor on the text comes to. -/
theorem tokenize_error_exact (src : Text) :
    (∀ e, tokenize src = .error e →
      ∃ cut, Leaves cut src e.near ∧ cut.flatMap Lexeme.text ++ e.near = src ∧
        e.loc = locate (cut.flatMap Lexeme.text) ∧ IsStuck e.near) ∧
    (∀ cut rest, Leaves cut src rest →
      (tokenize src = .error ⟨locate (cut.flatMap Lexeme.text), rest⟩ ↔ IsStuck rest)) ∧
    ((∃ ts, tokenize src = .ok ts) ↔ ∀ cut rest, Leaves cut src rest → ¬ IsStuck rest) ∧
    ∀ c, (Cursor.ofText src).Reaches c ↔
      ∃ cut, Leaves cut src c.rest ∧ c.loc = locate (cut.flatMap Lexeme.text) := by
  have herror (e : LexicalError) (he : tokenize src = .error e) :
      ∃ cut, Leaves cut src e.near ∧ cut.flatMap Lexeme.text ++ e.near = src ∧
        e.loc = locate (cut.flatMap Lexeme.text) ∧ IsStuck e.near := by
    rw [tokenize_eq_error_iff_drain] at he
    obtain ⟨hreach, hstuck⟩ := Cursor.exists_reaches_of_drain he
    obtain ⟨cut, hcut, hloc⟩ := Cursor.reaches_iff_leaves.1 hreach
    exact ⟨cut, hcut, hcut.flatMap_text_append, hloc, hstuck⟩
  have hstuck (cut : List Lexeme) (rest : Text) (hcut : Leaves cut src rest) (h : IsStuck rest) :
      tokenize src = .error ⟨locate (cut.flatMap Lexeme.text), rest⟩ := by
    have hreach : (Cursor.ofText src).Reaches ⟨rest, locate (cut.flatMap Lexeme.text)⟩ :=
      Cursor.reaches_iff_leaves.2 ⟨cut, hcut, rfl⟩
    rw [tokenize_eq_error_iff_drain, hreach.drain_eq]
    exact Cursor.drain_of_isStuck h
  refine ⟨herror, fun cut rest hcut => ⟨fun h => ?_, hstuck cut rest hcut⟩, ⟨?_, ?_⟩,
    fun c => Cursor.reaches_iff_leaves⟩
  · obtain ⟨-, -, -, -, hrest⟩ := herror _ h
    exact hrest
  · rintro ⟨ts, hts⟩ cut rest hcut hrest
    rw [hstuck cut rest hcut hrest] at hts
    cases hts
  · intro h
    cases hresult : tokenize src with
    | ok ts => exact ⟨ts, rfl⟩
    | error e =>
      obtain ⟨cut, hcut, -, -, hrest⟩ := herror e hresult
      exact absurd hrest (h cut e.near hcut)

/-- A number, a blank that has two bytes, and a comment with a quote in it. -/
def nextLineCut : List Lexeme :=
  [⟨.number, utf8 "1"⟩, ⟨.blanks, [0xC2, 0xA0]⟩, ⟨.blockComment, utf8 "/*'*/"⟩]

/-- The character U+0085, which is white space but no blank, in front of a semicolon. -/
def nextLineRest : Text := [0xC2, 0x85, 0x3B]

/-- Reading fails in front of U+0085 with all of the text from there on, although it could go on
behind that character. -/
theorem tokenize_error_nextLine :
    Leaves nextLineCut (nextLineCut.flatMap Lexeme.text ++ nextLineRest) nextLineRest ∧
      IsStuck nextLineRest ∧
      tokenize (nextLineCut.flatMap Lexeme.text ++ nextLineRest) =
        .error ⟨⟨1, 8⟩, nextLineRest⟩ ∧
      ∃ cut, Leaves cut (nextLineCut.flatMap Lexeme.text ++ nextLineRest) nextLineRest ∧
        ⟨1, 8⟩ = locate (cut.flatMap Lexeme.text) := by
  have hstuck : IsStuck nextLineRest :=
    (firstCut?_eq_none_iff (by decide)).1 (by decide +kernel)
  have hblanks : cutBlanks? ([0xC2, 0xA0] ++ (utf8 "/*'*/" ++ nextLineRest)) =
      some ([0xC2, 0xA0], utf8 "/*'*/" ++ nextLineRest) := by decide +kernel
  have hleaves : Leaves nextLineCut (nextLineCut.flatMap Lexeme.text ++ nextLineRest)
      nextLineRest := by
    refine ⟨[0xC2, 0xA0] ++ (utf8 "/*'*/" ++ nextLineRest), rfl, ?_,
      utf8 "/*'*/" ++ nextLineRest, rfl, ?_, nextLineRest, rfl, ?_, rfl⟩
    · exact ⟨by decide, List.forall_mem_singleton.2 rfl, by rintro b ⟨rfl⟩; rfl⟩
    · exact (cutBlanks?_eq_some_iff.1 hblanks).1
    · exact ⟨utf8 "'", rfl, by decide⟩
  obtain ⟨herror, hfails, -, -⟩ :=
    tokenize_error_exact (nextLineCut.flatMap Lexeme.text ++ nextLineRest)
  have hplace : locate (nextLineCut.flatMap Lexeme.text) = ⟨1, 8⟩ := by decide +kernel
  have htokenize := (hfails nextLineCut nextLineRest hleaves).2 hstuck
  rw [hplace] at htokenize
  obtain ⟨cut, hcut, -, hloc, -⟩ := herror _ htokenize
  exact ⟨hleaves, hstuck, htokenize, cut, hcut, hloc⟩

end ExprLang
