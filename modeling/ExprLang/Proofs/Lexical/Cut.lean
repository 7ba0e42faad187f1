import ExprLang.Proofs.Lexical.Drain
import ExprLang.Proofs.Lexical.Fits

/-!
# Cuts of a text

A cut divides a text into consecutive lexemes, each of which fits in front of what follows it.  A
text has at most one cut (`IsCut.unique`), since at its front at most one lexeme fits.

The main statement is `tokenize_iff_isCut`: a text has tokens exactly if it has a cut, and its
tokens are then the lexemes of the cut in order, less the comments and blanks.  A drain follows a
cut from lexeme to lexeme (`IsCut.exists_drain_eq`), and a drain that ends with the text leaves a
cut behind (`exists_isCut_of_drain`).
-/

namespace ExprLang

/-- A lexeme and the rule that it belongs to. -/
structure Lexeme where
  rule : Rule
  text : Text
  deriving DecidableEq

/-- The kind and the text of the token that a lexeme makes, if it makes one. -/
def Lexeme.token? (x : Lexeme) : Option (Kind × Text) :=
  x.rule.kind?.map fun kind => (kind, x.text)

/-- A list of lexemes divides a text: each stands at the front of what those before it have left and
fits there, and the last one leaves nothing. -/
def IsCut : List Lexeme → Text → Prop
  | [], src => src = []
  | x :: cut, src => ∃ r, x.text ++ r = src ∧ x.rule.Fits x.text r ∧ IsCut cut r

/-- A cut loses no byte of its text and adds none. -/
lemma IsCut.flatMap_text {cut : List Lexeme} {src : Text} (h : IsCut cut src) :
    cut.flatMap Lexeme.text = src := by
  induction cut generalizing src with
  | nil => exact h.symm
  | cons x cut ih =>
    obtain ⟨r, rfl, -, hcut⟩ := h
    rw [List.flatMap_cons, ih hcut]

/-- The empty text has only the empty cut. -/
lemma IsCut.eq_nil {cut : List Lexeme} (h : IsCut cut []) : cut = [] := by
  cases cut with
  | nil => rfl
  | cons x cut =>
    obtain ⟨r, happ, hfits, -⟩ := h
    exact absurd (List.append_eq_nil_iff.1 happ).1 (Rule.ne_nil_of_cut? hfits.cut?)

/-- A text has at most one cut. -/
lemma IsCut.unique {cut cut' : List Lexeme} {src : Text} (h : IsCut cut src) (h' : IsCut cut' src) :
    cut = cut' := by
  induction cut generalizing cut' src with
  | nil =>
    obtain rfl : src = [] := h
    exact h'.eq_nil.symm
  | cons x cut ih =>
    obtain ⟨rule, l⟩ := x
    obtain ⟨r, rfl, hfits, hcut⟩ := h
    cases cut' with
    | nil =>
      have hnil : l ++ r = [] := h'
      exact absurd (List.append_eq_nil_iff.1 hnil).1 (Rule.ne_nil_of_cut? hfits.cut?)
    | cons x' cut' =>
      obtain ⟨rule', l'⟩ := x'
      obtain ⟨r', happ, hfits', hcut'⟩ := h'
      obtain ⟨rfl, rfl, rfl⟩ := hfits.unique hfits' happ.symm
      rw [ih hcut hcut']

/-! ## The drain follows the cut -/

/-- From the beginning of a text that has a cut, a drain hands out the tokens of the cut and ends
with the text. -/
lemma IsCut.exists_drain_eq {cut : List Lexeme} {c : Cursor} (h : IsCut cut c.rest) :
    ∃ ts, c.drain = (ts, none) ∧
      ts.map (fun t => (t.kind, t.value)) = cut.filterMap Lexeme.token? := by
  induction cut generalizing c with
  | nil =>
    have hrest : c.rest = [] := h
    have hnone : firstCut? Rule.table c.rest = none := by
      rw [hrest, firstCut?_nil]
    refine ⟨[], ?_, rfl⟩
    rw [Cursor.drain, Cursor.drainWith_of_none hnone, if_pos hrest]
  | cons x cut ih =>
    obtain ⟨rule, l⟩ := x
    obtain ⟨r, happ, hfits, hcut⟩ := h
    have hfirst : firstCut? Rule.table c.rest = some (rule, l, r) :=
      firstCut?_table_eq_some_iff.2 ⟨hfits, happ⟩
    have hpast : IsCut cut (c.past l r).rest := hcut
    obtain ⟨ts, hts, hmap⟩ := ih hpast
    rw [Cursor.drain] at hts
    cases hk : rule.kind? with
    | none =>
      refine ⟨ts, ?_, ?_⟩
      · rw [Cursor.drain, Cursor.drainWith_of_skip hfirst hk, hts]
      · rw [hmap, List.filterMap_cons_none]
        simp [Lexeme.token?, hk]
    | some kind =>
      refine ⟨⟨kind, l, c.loc⟩ :: ts, ?_, ?_⟩
      · rw [Cursor.drain, Cursor.drainWith_of_kind hfirst hk, hts]
      · rw [List.map_cons, hmap, List.filterMap_cons_some]
        simp [Lexeme.token?, hk]

/-- A drain that ends without an error has gone along a cut. -/
lemma exists_isCut_of_drain {c : Cursor} (h : c.drain.2 = none) : ∃ cut, IsCut cut c.rest := by
  induction c using Cursor.cut_induction Rule.table with
  | stuck c hnone =>
    refine ⟨[], ?_⟩
    change c.rest = []
    by_contra hrest
    rw [Cursor.drain, Cursor.drainWith_of_none hnone, if_neg hrest] at h
    cases h
  | step c rule l r hfirst ih =>
    obtain ⟨hfits, happ⟩ := firstCut?_table_eq_some_iff.1 hfirst
    have hpast : (c.past l r).drain.2 = none := by
      cases hk : rule.kind? with
      | none => rwa [Cursor.drain, Cursor.drainWith_of_skip hfirst hk] at h
      | some kind => rwa [Cursor.drain, Cursor.drainWith_of_kind hfirst hk] at h
    obtain ⟨cut, hcut⟩ := ih hpast
    exact ⟨⟨rule, l⟩ :: cut, r, happ, hfits, hcut⟩

/-- Every token of a drain is a lexeme that fits where it stands. -/
lemma Cursor.exists_fits_of_mem_drain {c : Cursor} {t : Token} (h : t ∈ c.drain.1) :
    ∃ (rule : Rule) (r : Text), rule.kind? = some t.kind ∧ rule.Fits t.value r := by
  induction c using Cursor.cut_induction Rule.table with
  | stuck c hnone => simp [Cursor.drain, Cursor.drainWith_of_none hnone] at h
  | step c rule l r hfirst ih =>
    obtain ⟨hfits, -⟩ := firstCut?_table_eq_some_iff.1 hfirst
    cases hk : rule.kind? with
    | none =>
      rw [Cursor.drain, Cursor.drainWith_of_skip hfirst hk] at h
      exact ih h
    | some kind =>
      rw [Cursor.drain, Cursor.drainWith_of_kind hfirst hk] at h
      rcases List.mem_cons.1 h with rfl | h
      · exact ⟨rule, r, hk, hfits⟩
      · exact ih h

/-! ## Exactness -/

/-- A text has tokens exactly if it has a cut.  It has at most one, which holds every byte of the
text, and the tokens are the lexemes of the cut that are no comments or blanks, in order, with their
kinds and texts. -/
theorem tokenize_iff_isCut (src : Text) :
    ((∃ ts, tokenize src = .ok ts) ↔ ∃ cut, IsCut cut src) ∧
      (∀ cut cut', IsCut cut src → IsCut cut' src → cut = cut') ∧
      ∀ cut, IsCut cut src → cut.flatMap Lexeme.text = src ∧
        ∃ ts, tokenize src = .ok ts ∧
          ts.map (fun t => (t.kind, t.value)) = cut.filterMap Lexeme.token? := by
  have htokens : ∀ cut, IsCut cut src → ∃ ts, tokenize src = .ok ts ∧
      ts.map (fun t => (t.kind, t.value)) = cut.filterMap Lexeme.token? := by
    intro cut hcut
    obtain ⟨ts, hdrain, hmap⟩ := IsCut.exists_drain_eq (c := Cursor.ofText src) hcut
    exact ⟨ts, tokenize_eq_ok_iff.2 hdrain, hmap⟩
  refine ⟨⟨?_, ?_⟩, fun cut cut' => IsCut.unique, ?_⟩
  · rintro ⟨ts, hts⟩
    rw [tokenize_eq_ok_iff] at hts
    have hnone : (Cursor.ofText src).drain.2 = none := by rw [hts]
    exact exists_isCut_of_drain hnone
  · rintro ⟨cut, hcut⟩
    obtain ⟨ts, hts, -⟩ := htokens cut hcut
    exact ⟨ts, hts⟩
  · intro cut hcut
    exact ⟨hcut.flatMap_text, htokens cut hcut⟩

/-- A number, a comment with a quote in it, a string, and a slash and a star that open no
comment. -/
def uncommentedCut : List Lexeme :=
  [⟨.number, utf8 "7"⟩, ⟨.blockComment, utf8 "/*'*/"⟩, ⟨.string, utf8 "'/*'"⟩,
    ⟨.operator, utf8 "/"⟩, ⟨.operator, utf8 "*"⟩]

/-- What stands in a string closes no comment, and what opens one without closing it is two
operators. -/
theorem tokenize_uncommented :
    IsCut uncommentedCut (utf8 "7/*'*/'/*'/*") ∧
      ∃ ts, tokenize (utf8 "7/*'*/'/*'/*") = .ok ts ∧
        ts.map (fun t => (t.kind, t.value)) =
          [(.number, utf8 "7"), (.string, utf8 "'/*'"), (.operator, utf8 "/"),
            (.operator, utf8 "*")] := by
  have hcut : IsCut uncommentedCut (utf8 "7/*'*/'/*'/*") := by
    refine ⟨utf8 "/*'*/'/*'/*", rfl, ?_, utf8 "'/*'/*", rfl, ?_, utf8 "/*", rfl, ?_,
      utf8 "*", rfl, ?_, [], rfl, ?_, rfl⟩
    · exact ⟨by decide, List.forall_mem_singleton.2 rfl, by rintro b ⟨rfl⟩; rfl⟩
    · exact ⟨utf8 "'", rfl, by decide⟩
    · exact ⟨0x27, utf8 "/*", rfl, rfl, by decide⟩
    · exact ⟨0x2F, rfl, rfl, fun _ => ⟨by decide, by rintro behind ⟨rfl⟩; decide⟩⟩
    · exact ⟨0x2A, rfl, rfl, fun h => absurd h (by decide)⟩
  exact ⟨hcut, ((tokenize_iff_isCut _).2.2 _ hcut).2⟩

end ExprLang
