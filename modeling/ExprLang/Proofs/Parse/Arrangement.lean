import ExprLang.Proofs.Grammar.Lookahead
import ExprLang.Proofs.Grammar.Relocation
import ExprLang.Proofs.Lexical.Position

/-!
# Arrangements of words

A list of words can be written down in many ways.  An arrangement puts gaps before, between and
after the words, made of blanks, block comments and line comments.  Only three things depend on what
comes next: a line comment runs to the end of its line, two numbers need something between them, and
a slash must not be read together with what follows it as the beginning of a comment.

The main statement is `parse_arrangement`: the tokens of every arrangement are the words in order,
and any two arrangements of the same words are parsed alike.  Each word and each comment fits where
it stands (`Word.fits`, `Trivia.fits_of_comment`), and blanks only move the cursor, so a drain finds
exactly the words (`exists_drain_of_isArranged`).
-/

namespace ExprLang

/-! ## Words and gaps -/

/-- A lexeme that makes a token. -/
inductive Word where
  /-- Digits, at least one. -/
  | number (digits : Text) (ne : digits ≠ []) (digit : ∀ b ∈ digits, isDigit b)
  /-- A body between two quotes of one kind, which does not occur in it. -/
  | string (quote : UInt8) (body : Text) (isQuote : isQuote quote) (notMem : quote ∉ body)
  | semicolon
  | operator (b : UInt8) (isOperator : isOperator b)

namespace Word

/-- The rule that a word belongs to. -/
def rule : Word → Rule
  | .number .. => .number
  | .string .. => .string
  | .semicolon => .semicolon
  | .operator .. => .operator

/-- The kind of token that a word makes. -/
def kind : Word → Kind
  | .number .. => .number
  | .string .. => .string
  | .semicolon => .semicolon
  | .operator .. => .operator

/-- The bytes of a word. -/
def text : Word → Text
  | .number digits .. => digits
  | .string quote body .. => quote :: (body ++ [quote])
  | .semicolon => [0x3B]
  | .operator b _ => [b]

end Word

/-- A part of a gap. -/
inductive Trivia where
  | blank (c : Char) (isBlank : isBlank c)
  /-- A comment that is closed behind its body and not before. -/
  | blockComment (body : Text) (noClosing : ¬ closing <:+: body)
  /-- A comment whose body is on one line. -/
  | lineComment (body : Text) (inLine : ∀ b ∈ body, isLineEnd b = false)

namespace Trivia

/-- The rule that a part of a gap belongs to. -/
def rule : Trivia → Rule
  | .blank .. => .blanks
  | .blockComment .. => .blockComment
  | .lineComment .. => .lineComment

/-- The bytes of a part of a gap. -/
def text : Trivia → Text
  | .blank c _ => String.utf8EncodeChar c
  | .blockComment body _ => 0x2F :: 0x2A :: (body ++ closing)
  | .lineComment body _ => 0x2F :: 0x2F :: body

end Trivia

/-- A word, or a part of the gap between words. -/
inductive Element where
  | word (w : Word)
  | gap (g : Trivia)

namespace Element

/-- The word that an element is, if it is one. -/
def word? : Element → Option Word
  | .word w => some w
  | .gap _ => none

/-- The rule that an element belongs to. -/
def rule : Element → Rule
  | .word w => w.rule
  | .gap g => g.rule

/-- The bytes of an element. -/
def text : Element → Text
  | .word w => w.text
  | .gap g => g.text

/-- What an element asks of the elements behind it. -/
def MayPrecede : Element → List Element → Prop
  | .word (.number ..), elements => ∀ w, elements.head? = some (.word w) → w.kind ≠ .number
  | .word (.operator b _), elements => b = 0x2F →
      (elements.flatMap text).head? ≠ some 0x2F ∧ (elements.flatMap text).head? ≠ some 0x2A
  | .gap (.lineComment ..), elements => ∀ b, (elements.flatMap text).head? = some b → isLineEnd b
  | _, _ => True

end Element

/-- Every element of a list gets what it asks of those behind it. -/
def IsArranged : List Element → Prop
  | [] => True
  | x :: elements => x.MayPrecede elements ∧ IsArranged elements

/-- A way of writing down a list of words. -/
structure Arrangement (words : List Word) where
  elements : List Element
  words_eq : elements.filterMap Element.word? = words
  isArranged : IsArranged elements

/-- The text that an arrangement writes down. -/
def Arrangement.text {words : List Word} (a : Arrangement words) : Text :=
  a.elements.flatMap Element.text

/-! ## Every element fits where it stands -/

/-- A body that does not close a comment does not close it together with the star behind it. -/
lemma not_closing_infix_append_star {body : Text} (h : ¬ closing <:+: body) :
    ¬ closing <:+: body ++ [0x2A] := by
  intro hinfix
  rcases List.infix_concat_iff.1 hinfix with hsuffix | hbody
  · obtain ⟨u, hu⟩ := hsuffix
    have hlast := congrArg List.getLast? hu
    simp [closing] at hlast
  · exact h hbody

/-- A word fits in front of a text on which neither its digits nor its slash go on. -/
lemma Word.fits {w : Word} {r : Text}
    (hnumber : w.kind = .number → ∀ b, r.head? = some b → isDigit b = false)
    (hslash : w.text = [0x2F] → r.head? ≠ some 0x2F ∧ r.head? ≠ some 0x2A) :
    w.rule.Fits w.text r := by
  cases w with
  | number digits ne digit => exact ⟨ne, digit, hnumber rfl⟩
  | string quote body isQuote notMem => exact ⟨quote, body, rfl, isQuote, notMem⟩
  | semicolon => exact rfl
  | operator b isOperator =>
    refine ⟨b, rfl, isOperator, ?_⟩
    rintro rfl
    obtain ⟨hline, hblock⟩ := hslash rfl
    refine ⟨hline, ?_⟩
    rintro behind rfl
    exact absurd rfl hblock

/-- A comment fits in front of a text that does not go on in its line. -/
lemma Trivia.fits_of_comment {g : Trivia} {r : Text} (hg : g.rule ≠ .blanks)
    (hline : g.rule = .lineComment → ∀ b, r.head? = some b → isLineEnd b) :
    g.rule.Fits g.text r := by
  cases g with
  | blank c isBlank => exact absurd rfl hg
  | blockComment body noClosing => exact ⟨body, rfl, not_closing_infix_append_star noClosing⟩
  | lineComment body inLine => exact ⟨⟨body, rfl, inLine⟩, hline rfl⟩

/-- At the end of a text every element fits. -/
lemma Element.fits_nil (x : Element) : x.rule.Fits x.text [] := by
  cases x with
  | word w => exact Word.fits (by simp) (by simp)
  | gap g =>
    by_cases hg : g.rule = .blanks
    · cases g with
      | blank c isBlank =>
        have hchars : String.utf8EncodeChar c = Text.ofChars [c] := by simp
        refine ⟨⟨[c], by simp, hchars, by simpa using isBlank⟩, ?_⟩
        intro d _ hprefix
        exact String.utf8EncodeChar_ne_nil (List.prefix_nil.1 hprefix)
      | _ => simp [Trivia.rule] at hg
    · exact Trivia.fits_of_comment hg (by simp)

/-- An element begins with a byte of the class of its rule. -/
lemma Element.exists_lead (x : Element) : ∃ b u, x.text = b :: u ∧ lead b = x.rule.lead := by
  have hcut := x.fits_nil.cut?
  rw [List.append_nil] at hcut
  exact Rule.lead_of_cut? hcut

/-- Where no number comes next, no digit does. -/
lemma isDigit_eq_false_of_head? {elements : List Element}
    (h : ∀ w, elements.head? = some (.word w) → w.kind ≠ .number) (b : UInt8)
    (hb : (elements.flatMap Element.text).head? = some b) : isDigit b = false := by
  cases elements with
  | nil => simp at hb
  | cons x elements =>
    obtain ⟨b', u, htext, hlead⟩ := x.exists_lead
    obtain rfl : b' = b := by simpa [htext] using hb
    by_contra hdigit
    have hrule : x.rule.lead = .digit := by
      rw [← hlead, lead, if_pos (by simpa using hdigit)]
    cases x with
    | gap g => cases g <;> simp [Element.rule, Trivia.rule, Rule.lead] at hrule
    | word w =>
      have hkind : w.kind ≠ .number := h w rfl
      cases w <;> simp_all [Element.rule, Word.rule, Rule.lead, Word.kind]

/-- A word fits in front of the elements behind it in an arrangement. -/
lemma Word.fits_of_mayPrecede {w : Word} {elements : List Element}
    (h : (Element.word w).MayPrecede elements) :
    w.rule.Fits w.text (elements.flatMap Element.text) := by
  apply Word.fits
  · intro hkind
    cases w with
    | number digits ne digit => exact isDigit_eq_false_of_head? h
    | _ => simp [Word.kind] at hkind
  · intro htext
    cases w with
    | operator b isOperator => exact h (by simpa [Word.text] using htext)
    | number digits ne digit =>
      have hslash : isDigit 0x2F := digit 0x2F (by simp [show digits = [0x2F] from htext])
      exact absurd hslash (by decide)
    | _ => simp [Word.text] at htext

/-- A word makes a token of its kind. -/
lemma Word.kind?_rule (w : Word) : w.rule.kind? = some w.kind := by
  cases w <;> rfl

/-- No part of a gap makes a token. -/
lemma Trivia.kind?_rule (g : Trivia) : g.rule.kind? = none := by
  cases g <;> rfl

/-! ## The drain finds the words -/

/-- A drain over arranged elements hands out the words among them. -/
lemma exists_drain_of_isArranged {elements : List Element} (h : IsArranged elements)
    (l : Location) :
    ∃ ts, (⟨elements.flatMap Element.text, l⟩ : Cursor).drain = (ts, none) ∧
      ts.map (fun t => (t.kind, t.value)) =
        (elements.filterMap Element.word?).map fun w => (w.kind, w.text) := by
  -- element by element: each is cut off whole, except that blanks merge with those behind them
  induction elements generalizing l with
  | nil => exact ⟨[], Cursor.drain_nil l, rfl⟩
  | cons x elements ih =>
    obtain ⟨hx, helements⟩ := h
    rw [List.flatMap_cons]
    cases x with
    | word w =>
      have hfits : w.rule.Fits w.text (elements.flatMap Element.text) := Word.fits_of_mayPrecede hx
      obtain ⟨ts, hts, hmap⟩ := ih helements (l.after w.text)
      refine ⟨⟨w.kind, w.text, l⟩ :: ts, ?_, ?_⟩
      · rw [Element.text, Cursor.drain_append_of_kind hfits w.kind?_rule, hts]
      · simp [Element.word?, hmap]
    | gap g =>
      have hwords : (Element.gap g :: elements).filterMap Element.word? =
        elements.filterMap Element.word? := rfl
      rw [hwords, Element.text]
      by_cases hg : g.rule = .blanks
      · cases g with
        | blank c isBlank =>
          rw [Trivia.text, Cursor.drain_blank_append isBlank]
          exact ih helements _
        | _ => simp [Trivia.rule] at hg
      · have hfits : g.rule.Fits g.text (elements.flatMap Element.text) := by
          refine Trivia.fits_of_comment hg fun hline => ?_
          cases g with
          | lineComment body inLine => exact hx
          | _ => simp [Trivia.rule] at hline
        rw [Cursor.drain_append_of_skip hfits g.kind?_rule]
        exact ih helements _

/-- The tokens of an arrangement are its words. -/
lemma Arrangement.exists_tokenize {words : List Word} (a : Arrangement words) :
    ∃ ts, tokenize a.text = .ok ts ∧
      ts.map (fun t => (t.kind, t.value)) = words.map fun w => (w.kind, w.text) := by
  obtain ⟨ts, hdrain, hmap⟩ := exists_drain_of_isArranged a.isArranged .start
  rw [a.words_eq] at hmap
  exact ⟨ts, tokenize_eq_ok_iff.2 hdrain, hmap⟩

/-! ## Arrangements of the same words are parsed alike -/

/-- Tokens with the same kinds and texts are the same up to locations. -/
lemma forall₂_moved_of_map_eq {ts ts' : List Token}
    (h : ts.map (fun t => (t.kind, t.value)) = ts'.map fun t => (t.kind, t.value)) :
    List.Forall₂ (Token.Moved fun _ _ => True) ts ts' := by
  rw [← List.forall₂_eq_eq_eq, List.forall₂_map_left_iff, List.forall₂_map_right_iff] at h
  refine h.imp ?_
  intro t t' htt'
  obtain ⟨hkind, hvalue⟩ := Prod.mk.inj htt'
  exact ⟨hkind.symm, hvalue.symm, trivial, trivial⟩

/-- Tokens with the same kinds and texts spell the same program, or have errors that differ in
locations only. -/
lemma agree_parseTokens {ts ts' : List Token}
    (h : ts.map (fun t => (t.kind, t.value)) = ts'.map fun t => (t.kind, t.value)) :
    Agree (fun p p' => p' = p) (GrammarError.Moved fun _ _ => True) (parseTokens ts)
      (parseTokens ts') := by
  have hstatements : State.start.statements = State.start.statements ++ [] := by simp
  have hrun := State.agree_feedAll (forall₂_moved_of_map_eq h) hstatements rfl fun _ => trivial
  refine hrun.bind fun s s' hs => ?_
  have hfinish := State.agree_finish hs fun _ _ => rfl
  revert hfinish
  generalize s.finish = x
  generalize s'.finish = y
  rintro (⟨hbody⟩ | he)
  · exact .ok (congrArg Program.mk (by simpa using hbody))
  · exact .error he

/-- The tokens of an arrangement are exactly its words, with their kinds and texts.  Two
arrangements of the same words give the same program, or grammar errors with the same cause, the
same expectation, and a token of the same kind and text found in its place, or none found. -/
theorem parse_arrangement {words : List Word} (a a' : Arrangement words) :
    (∃ ts, tokenize a.text = .ok ts ∧
      ts.map (fun t => (t.kind, t.value)) = words.map fun w => (w.kind, w.text)) ∧
    (∃ ts, tokenize a'.text = .ok ts ∧
      ts.map (fun t => (t.kind, t.value)) = words.map fun w => (w.kind, w.text)) ∧
    ((∃ p, parse a.text = .ok p ∧ parse a'.text = .ok p) ∨
      ∃ e e', parse a.text = .error (.grammar e) ∧ parse a'.text = .error (.grammar e') ∧
        e'.cause = e.cause ∧ e'.expected = e.expected ∧
        e'.found.map (fun t => (t.kind, t.value)) = e.found.map fun t => (t.kind, t.value)) := by
  obtain ⟨ts, hts, hmap⟩ := a.exists_tokenize
  obtain ⟨ts', hts', hmap'⟩ := a'.exists_tokenize
  refine ⟨⟨ts, hts, hmap⟩, ⟨ts', hts', hmap'⟩, ?_⟩
  have hparse : parse a.text = (parseTokens ts).mapError .grammar :=
    Parser.outcome_eq_parseTokens (delivers_of_tokenize_ok hts)
  have hparse' : parse a'.text = (parseTokens ts').mapError .grammar :=
    Parser.outcome_eq_parseTokens (delivers_of_tokenize_ok hts')
  have hagree := agree_parseTokens (hmap.trans hmap'.symm)
  rw [hparse, hparse']
  revert hagree
  generalize parseTokens ts = x
  generalize parseTokens ts' = y
  rintro (⟨rfl⟩ | he)
  · exact .inl ⟨_, rfl, rfl⟩
  · exact .inr ⟨_, _, rfl, rfl, he.cause, he.expected, he.map_found⟩

/-- The words of a division by the text of an opening comment. -/
def divisionWords : List Word :=
  [.number (utf8 "1") (by decide) (List.forall_mem_singleton.2 rfl), .operator 0x2F (by decide),
    .string 0x27 (utf8 "/*") (by decide) (by decide), .semicolon]

/-- The words of the division without any gap. -/
def divisionClose : Arrangement divisionWords where
  elements := divisionWords.map .word
  words_eq := rfl
  isArranged := by
    refine ⟨?_, ?_, trivial, trivial, trivial⟩
    · rintro w ⟨rfl⟩
      decide
    · intro _
      decide

/-- The words of the division with a comment in every gap. -/
def divisionSpread : Arrangement divisionWords where
  elements :=
    [.gap (.lineComment (utf8 "'") (List.forall_mem_singleton.2 rfl)),
      .gap (.blank '\n' (by decide)),
      .word (.number (utf8 "1") (by decide) (List.forall_mem_singleton.2 rfl)),
      .gap (.blockComment (utf8 "'/") (by decide)), .word (.operator 0x2F (by decide)),
      .gap (.blank '\u00a0' (by decide)),
      .word (.string 0x27 (utf8 "/*") (by decide) (by decide)), .word .semicolon,
      .gap (.lineComment (utf8 ";") (List.forall_mem_singleton.2 rfl))]
  words_eq := rfl
  isArranged := by
    refine ⟨?_, trivial, ?_, trivial, ?_, trivial, trivial, trivial, ?_, trivial⟩
    · rintro b ⟨rfl⟩
      decide
    · rintro w ⟨⟩
    · intro _
      decide
    · rintro b ⟨⟩

/-- Quotes, semicolons and slashes in comments change nothing. -/
theorem parse_division :
    divisionClose.text = utf8 "1/'/*';" ∧
      divisionSpread.text = utf8 "//'\n1/*'/*//\u00a0'/*';//;" ∧
      ((∃ p, parse divisionClose.text = .ok p ∧ parse divisionSpread.text = .ok p) ∨
        ∃ e e', parse divisionClose.text = .error (.grammar e) ∧
          parse divisionSpread.text = .error (.grammar e') ∧ e'.cause = e.cause ∧
          e'.expected = e.expected ∧
          e'.found.map (fun t => (t.kind, t.value)) = e.found.map fun t => (t.kind, t.value)) :=
  ⟨rfl, rfl, (parse_arrangement divisionClose divisionSpread).2.2⟩

end ExprLang
