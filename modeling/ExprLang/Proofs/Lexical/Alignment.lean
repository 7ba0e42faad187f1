import ExprLang.Proofs.Lexical.Position
import Mathlib.Logic.Function.Iterate

/-!
# Lexemes end where characters end

A cursor counts the pieces of each lexeme by itself, while a location is meant to count the pieces
of everything before it.  The two counts can differ: `E2 82` and `AC` are three stray bytes apart
and one character together.  A text *splits* at a place if no character reaches over that place, so
that the pieces of the whole are those of both parts (`Splits`).

A text splits in front of every byte of ASCII and behind it, and behind every whole character.  This
is where lexemes end: a line comment ends in front of a line end, a run of blanks behind a
character, and all others behind a byte of ASCII (`Rule.Fits.splits`).  So a cursor that has come to
some place, lexeme by lexeme, has the location of that place (`Cursor.Reaches.exists_standsIn`), and
one call of a cursor goes on by whole lexemes (`Cursor.next_cases`).

The main statement is `locations_of_calls`: tokens and lexical errors have the locations that follow
from the text before them as a whole.
-/

namespace ExprLang

/-! ## Places where a text splits -/

/-- The pieces of two texts one behind the other are the pieces of either. -/
def Splits (l r : Text) : Prop := pieces (l ++ r) = pieces l ++ pieces r

/-- A character at the front of a text is there whatever follows. -/
lemma firstChar?_append {l : Text} {c : Char} (h : firstChar? l = some c) (r : Text) :
    firstChar? (l ++ r) = some c := by
  obtain ⟨u, rfl⟩ := firstChar?_eq_some_iff.1 h
  exact firstChar?_eq_some_iff.2 ⟨u ++ r, List.append_assoc ..⟩

/-- Every text splits at its front. -/
lemma splits_nil_left (r : Text) : Splits [] r := by
  simp [Splits]

/-- Every text splits at its end. -/
lemma splits_nil_right (l : Text) : Splits l [] := by
  simp [Splits]

/-- Behind a character, a text splits where the rest of it does. -/
lemma splits_utf8EncodeChar_append_iff {c : Char} {l r : Text} :
    Splits (String.utf8EncodeChar c ++ l) r ↔ Splits l r := by
  simp [Splits, pieces_utf8EncodeChar_append]

/-- Behind a stray byte, a text splits where the rest of it does, unless what follows makes the byte
part of a character. -/
lemma splits_cons_iff_of_none {b : UInt8} {l r : Text} (hnone : firstChar? (b :: l) = none) :
    Splits (b :: l) r ↔ firstChar? (b :: (l ++ r)) = none ∧ Splits l r := by
  unfold Splits
  rw [List.cons_append, pieces_cons_of_none hnone]
  cases hfirst : firstChar? (b :: (l ++ r)) with
  | none =>
    rw [pieces_cons_of_none hfirst]
    simp
  | some c =>
    obtain ⟨u, hu⟩ := firstChar?_eq_some_iff.1 hfirst
    rw [hu, pieces_utf8EncodeChar_append]
    simp

/-- A text that splits somewhere still does so if something at its end is left away. -/
lemma Splits.of_append {l r u : Text} (h : Splits l (r ++ u)) : Splits l r := by
  induction l using piece_induction with
  | nil => exact splits_nil_left r
  | char c l ih =>
    rw [splits_utf8EncodeChar_append_iff] at h ⊢
    exact ih h
  | stray b l hnone ih =>
    obtain ⟨hfirst, hl⟩ := (splits_cons_iff_of_none hnone).1 h
    refine (splits_cons_iff_of_none hnone).2 ⟨?_, ih hl⟩
    by_contra hsome
    obtain ⟨c, hc⟩ := Option.ne_none_iff_exists'.1 hsome
    have happend := firstChar?_append hc u
    rw [List.cons_append, List.append_assoc, hfirst] at happend
    cases happend

/-- Two places where a text splits cut it into three parts. -/
lemma Splits.append {l m r : Text} (h : Splits l (m ++ r)) (hm : Splits m r) :
    Splits (l ++ m) r := by
  have hl : pieces (l ++ m) = pieces l ++ pieces m := h.of_append
  unfold Splits at h hm ⊢
  rw [List.append_assoc, h, hm, hl, List.append_assoc]

/-! ## Bytes of ASCII -/

/-- A byte of ASCII in the encoding of a character is all of it. -/
lemma utf8EncodeChar_eq_singleton {c : Char} {b : UInt8} (hb : b.toNat < 0x80)
    (h : b ∈ String.utf8EncodeChar c) : String.utf8EncodeChar c = [b] := by
  have hnat : b.toNat = c.toNat := by
    rcases toNat_of_mem_utf8EncodeChar h with hnat | hnat
    · exact hnat
    · omega
  have hsize : (String.utf8EncodeChar c).length = 1 := by
    rw [String.length_utf8EncodeChar, Char.utf8Size_eq_one_iff, UInt32.le_iff_toNat_le,
      Char.toNat_val, ← hnat]
    exact Nat.le_of_lt_succ hb
  obtain ⟨b', hb'⟩ := List.length_eq_one_iff.1 hsize
  rw [hb'] at h ⊢
  rw [List.mem_singleton.1 h]

/-- Every byte of ASCII encodes a character. -/
lemma exists_utf8EncodeChar_eq {b : UInt8} (hb : b.toNat < 0x80) :
    ∃ c, String.utf8EncodeChar c = [b] := by
  have hsize : (Char.ofUInt8 b).utf8Size = 1 := by
    rw [Char.utf8Size_eq_one_iff, UInt32.le_iff_toNat_le]
    change b.toUInt32.toNat ≤ 127
    rw [UInt8.toNat_toUInt32]
    exact Nat.le_of_lt_succ hb
  refine ⟨Char.ofUInt8 b, ?_⟩
  rw [String.utf8EncodeChar_eq_singleton hsize]
  exact congrArg (· :: []) (UInt8.toUInt8_toUInt32 b)

/-- A text splits in front of a byte of ASCII. -/
lemma splits_cons_of_ascii {b : UInt8} (hb : b.toNat < 0x80) (l r : Text) : Splits l (b :: r) := by
  induction l using piece_induction with
  | nil => exact splits_nil_left _
  | char c l ih => exact splits_utf8EncodeChar_append_iff.2 ih
  | stray b' l hnone ih =>
    refine (splits_cons_iff_of_none hnone).2 ⟨?_, ih⟩
    by_contra hsome
    obtain ⟨c, hc⟩ := Option.ne_none_iff_exists'.1 hsome
    obtain ⟨u, hu⟩ := firstChar?_eq_some_iff.1 hc
    have hlonger : ∀ v, b' :: l ≠ String.utf8EncodeChar c ++ v := by
      intro v hv
      have hfirst : firstChar? (b' :: l) = some c := firstChar?_eq_some_iff.2 ⟨v, hv⟩
      rw [hnone] at hfirst
      cases hfirst
    -- a character at the stray byte would reach over the byte of ASCII, and then be that byte
    rw [← List.cons_append] at hu
    rcases List.append_eq_append_iff.1 hu with ⟨v, hv, hbr⟩ | ⟨v, hv, -⟩
    · cases v with
      | nil => exact hlonger [] (by simpa using hv.symm)
      | cons b'' v =>
        obtain rfl : b = b'' := (List.cons.inj hbr).1
        have hmem : b ∈ String.utf8EncodeChar c := by simp [hv]
        have hone := utf8EncodeChar_eq_singleton hb hmem
        rw [hv] at hone
        simp at hone
    · exact hlonger v hv

/-- A text splits behind a byte of ASCII. -/
lemma splits_append_of_ascii {b : UInt8} (hb : b.toNat < 0x80) (l r : Text) :
    Splits (l ++ [b]) r := by
  have hbehind : Splits [b] r := by
    obtain ⟨c, hc⟩ := exists_utf8EncodeChar_eq hb
    rw [← hc, ← List.append_nil (String.utf8EncodeChar c), splits_utf8EncodeChar_append_iff]
    exact splits_nil_left r
  exact Splits.append (splits_cons_of_ascii hb l r) hbehind

/-- A text splits behind whole characters. -/
lemma splits_ofChars (cs : List Char) (r : Text) : Splits (Text.ofChars cs) r := by
  induction cs with
  | nil => exact splits_nil_left r
  | cons c cs ih =>
    rw [Text.ofChars_cons, splits_utf8EncodeChar_append_iff]
    exact ih

/-! ## Lexemes -/

/-- Digits are bytes of ASCII. -/
lemma toNat_lt_of_isDigit {b : UInt8} (h : isDigit b) : b.toNat < 0x80 := by
  simp only [isDigit, Bool.and_eq_true, decide_eq_true_eq, UInt8.le_iff_toNat_le] at h
  exact Nat.lt_of_le_of_lt h.2 (by decide)

/-- A text splits behind each of its lexemes. -/
lemma Rule.Fits.splits {rule : Rule} {l r : Text} (h : rule.Fits l r) : Splits l r := by
  cases rule with
  | lineComment =>
    obtain ⟨-, hend⟩ := h
    cases r with
    | nil => exact splits_nil_right l
    | cons b r =>
      have hb : isLineEnd b := hend b rfl
      have hascii : b.toNat < 0x80 := by
        rcases (by simpa [isLineEnd] using hb : b = 0x0A ∨ b = 0x0D) with rfl | rfl <;> decide
      exact splits_cons_of_ascii hascii l r
  | blockComment =>
    obtain ⟨body, rfl, -⟩ := h
    have hlast : 0x2F :: 0x2A :: (body ++ closing) =
        (0x2F :: 0x2A :: (body ++ [0x2A])) ++ [0x2F] := by
      simp [closing]
    rw [hlast]
    exact splits_append_of_ascii (by decide) _ r
  | blanks =>
    obtain ⟨⟨cs, -, rfl, -⟩, -⟩ := h
    exact splits_ofChars cs r
  | number =>
    obtain ⟨hne, hdigit, -⟩ := h
    have hlast : isDigit (l.getLast hne) := hdigit _ (List.getLast_mem hne)
    rw [← List.dropLast_concat_getLast hne]
    exact splits_append_of_ascii (toNat_lt_of_isDigit hlast) _ r
  | string =>
    obtain ⟨q, body, rfl, hq, -⟩ := h
    have hascii : q.toNat < 0x80 := by
      rcases (by simpa [isQuote] using hq : q = 0x22 ∨ q = 0x27) with rfl | rfl <;> decide
    exact splits_append_of_ascii hascii (q :: body) r
  | semicolon =>
    obtain rfl : l = [0x3B] := h
    exact splits_append_of_ascii (by decide) [] r
  | operator =>
    obtain ⟨b, rfl, hb, -⟩ := h
    have hascii : b.toNat < 0x80 := by
      rcases (by simpa [isOperator] using hb : ((b = 0x2B ∨ b = 0x2D) ∨ b = 0x2A) ∨ b = 0x2F) with
        ((rfl | rfl) | rfl) | rfl <;> decide
    exact splits_append_of_ascii hascii [] r

/-! ## Where a cursor stands -/

/-- The location just past a text that is decoded as a whole from the first line and column. -/
def locate (t : Text) : Location := Location.start.after t

/-- Where a text splits, its location can be found part by part. -/
lemma locate_append {l r : Text} (h : Splits l r) : locate (l ++ r) = (locate l).after r := by
  unfold locate Location.after
  rw [h, List.foldl_append]

namespace Cursor

/-- A cursor stands in a text behind a part that has been read. -/
structure StandsIn (c : Cursor) (src read : Text) : Prop where
  /-- What has been read and what is left are the text. -/
  text : read ++ c.rest = src
  /-- No character reaches over the place of the cursor. -/
  splits : Splits read c.rest
  /-- The location is the one of that place. -/
  loc : c.loc = locate read

/-- A cursor comes to another one by cutting lexemes off. -/
inductive Reaches : Cursor → Cursor → Prop
  | refl (c : Cursor) : Reaches c c
  | cut {c c' : Cursor} {rule : Rule} {l r : Text}
      (h : firstCut? Rule.table c.rest = some (rule, l, r)) (h' : Reaches (c.past l r) c') :
      Reaches c c'

variable {c c' : Cursor} {src read : Text}

/-- A new cursor stands at the front of its text. -/
lemma standsIn_ofText (src : Text) : (ofText src).StandsIn src [] :=
  ⟨rfl, splits_nil_left src, (Location.after_nil _).symm⟩

/-- A cursor moves over a lexeme to the place behind it. -/
lemma StandsIn.past (h : c.StandsIn src read) {rule : Rule} {l r : Text} (hfits : rule.Fits l r)
    (hrest : l ++ r = c.rest) : (c.past l r).StandsIn src (read ++ l) := by
  have hsplits : Splits read (l ++ r) := hrest ▸ h.splits
  have hloc : c.loc.after l = locate (read ++ l) := by
    rw [locate_append hsplits.of_append, h.loc]
  refine ⟨?_, hsplits.append hfits.splits, hloc⟩
  change read ++ l ++ r = src
  rw [List.append_assoc, hrest, h.text]

/-- Wherever a cursor comes to, it stands in its text. -/
lemma Reaches.exists_standsIn (h : c.Reaches c') (hc : c.StandsIn src read) :
    ∃ more, c'.StandsIn src (read ++ more) := by
  induction h generalizing read with
  | refl c => exact ⟨[], by simpa using hc⟩
  | cut hfirst _ ih =>
    obtain ⟨hfits, hrest⟩ := firstCut?_table_eq_some_iff.1 hfirst
    obtain ⟨more, hmore⟩ := ih (hc.past hfits hrest)
    exact ⟨_, by rwa [List.append_assoc] at hmore⟩

/-- One call of a cursor goes on by whole lexemes, which are skipped, to a place where a token
stands or no rule applies.  It hands the token out and goes on behind it, or stays. -/
lemma next_cases (c : Cursor) :
    ∃ c₀, c.Reaches c₀ ∧
      ((∃ rule kind l r, firstCut? Rule.table c₀.rest = some (rule, l, r) ∧
          rule.kind? = some kind ∧ c.next = (.ok (some ⟨kind, l, c₀.loc⟩), c₀.past l r)) ∨
        (firstCut? Rule.table c₀.rest = none ∧
          c.next = (if c₀.rest = [] then .ok none else .error ⟨c₀.loc, c₀.rest⟩, c₀))) := by
  unfold next
  induction c using cut_induction Rule.table with
  | stuck c hnone => exact ⟨c, .refl c, .inr ⟨hnone, nextWith_of_none hnone⟩⟩
  | step c rule l r hfirst ih =>
    cases hk : rule.kind? with
    | some kind =>
      exact ⟨c, .refl c, .inl ⟨rule, kind, l, r, hfirst, hk, nextWith_of_kind hfirst hk⟩⟩
    | none =>
      obtain ⟨c₀, hreach, hnext⟩ := ih
      rw [nextWith_of_skip hfirst hk]
      exact ⟨c₀, .cut hfirst hreach, hnext⟩

/-! ## Call after call -/

/-- The cursor after a number of calls. -/
def afterCalls (c : Cursor) (n : Nat) : Cursor := (fun c => c.next.2)^[n] c

/-- What call number `n` answers, the first one being number zero. -/
def answer (c : Cursor) (n : Nat) : Except LexicalError (Option Token) := (c.afterCalls n).next.1

/-- One more call is made by the cursor that the calls before have left. -/
lemma afterCalls_succ (c : Cursor) (n : Nat) : c.afterCalls (n + 1) = (c.afterCalls n).next.2 :=
  Function.iterate_succ_apply' _ n c

/-- The first token of a drain is what one call hands out, and the others are drained behind it. -/
lemma next_of_drain_eq_cons {t : Token} {ts : List Token} (h : c.drain.1 = t :: ts) :
    c.next.1 = .ok (some t) ∧ c.next.2.drain = (ts, c.drain.2) := by
  have hdrain : c.drain = _ := drainWith_eq Rule.table c
  rw [hdrain] at h ⊢
  unfold next
  cases hanswer : (c.nextWith Rule.table).1 with
  | error e => simp [hanswer] at h
  | ok t? =>
    cases t? with
    | none => simp [hanswer] at h
    | some t' =>
      rw [hanswer] at h
      obtain ⟨rfl, rfl⟩ := List.cons.inj h
      exact ⟨rfl, rfl⟩

/-- As many calls as there are tokens leave the later ones to drain. -/
lemma drain_afterCalls {n : Nat} (hn : n ≤ c.drain.1.length) :
    (c.afterCalls n).drain = (c.drain.1.drop n, c.drain.2) := by
  induction n generalizing c with
  | zero => rfl
  | succ n ih =>
    obtain ⟨t, ts, hts⟩ := List.exists_cons_of_length_pos (Nat.lt_of_lt_of_le n.succ_pos hn)
    obtain ⟨-, hnext⟩ := next_of_drain_eq_cons hts
    have hn' : n ≤ c.next.2.drain.1.length := by
      rw [hts, List.length_cons] at hn
      rw [hnext]
      exact Nat.le_of_succ_le_succ hn
    have hcalls : c.afterCalls (n + 1) = c.next.2.afterCalls n := rfl
    rw [hcalls, ih hn', hnext, hts, List.drop_succ_cons]

/-- The calls hand out the tokens of the drain one by one. -/
lemma answer_of_getElem?_drain {n : Nat} {t : Token} (h : c.drain.1[n]? = some t) :
    c.answer n = .ok (some t) := by
  obtain ⟨hn, ht⟩ := List.getElem?_eq_some_iff.1 h
  have hdrain : (c.afterCalls n).drain.1 = t :: c.drain.1.drop (n + 1) := by
    rw [drain_afterCalls (Nat.le_of_lt hn), List.drop_eq_getElem_cons hn, ht]
  exact (next_of_drain_eq_cons hdrain).1

/-- A cursor that comes to a second one comes to whatever that comes to. -/
lemma Reaches.trans {c'' : Cursor} (h : c.Reaches c') (h' : c'.Reaches c'') : c.Reaches c'' := by
  induction h with
  | refl c => exact h'
  | cut hfirst _ ih => exact .cut hfirst (ih h')

/-- One call goes on by whole lexemes. -/
lemma reaches_next (c : Cursor) : c.Reaches c.next.2 := by
  obtain ⟨c₀, hreach, ⟨rule, kind, l, r, hfirst, -, hnext⟩ | ⟨-, hnext⟩⟩ := c.next_cases
  · rw [hnext]
    exact hreach.trans (.cut hfirst (.refl _))
  · rw [hnext]
    exact hreach

/-- Calls go on by whole lexemes. -/
lemma reaches_afterCalls (c : Cursor) (n : Nat) : c.Reaches (c.afterCalls n) := by
  induction n with
  | zero => exact .refl c
  | succ n ih =>
    rw [afterCalls_succ]
    exact ih.trans (reaches_next _)

/-- A cursor on a text stands in it wherever it comes to. -/
lemma exists_standsIn_of_reaches (h : (ofText src).Reaches c) : ∃ read, c.StandsIn src read := by
  obtain ⟨read, hread⟩ := h.exists_standsIn (standsIn_ofText src)
  exact ⟨_, hread⟩

end Cursor

/-- A token stands in a text between a part before it and a part behind it. -/
structure Token.StandsIn (t : Token) (src before behind : Text) : Prop where
  /-- The token and the two parts are the text. -/
  text : before ++ t.value ++ behind = src
  /-- No character reaches over either end of the token. -/
  pieces : pieces before ++ pieces t.value ++ pieces behind = pieces src
  /-- The location of the token is the one of its first byte. -/
  loc : t.loc = locate before
  /-- The location just past the token is the one behind its last byte. -/
  stop : t.stop = locate (before ++ t.value)

/-- A lexeme that is a token stands where the cursor does. -/
lemma Cursor.StandsIn.token {c : Cursor} {src before : Text} (h : c.StandsIn src before)
    {rule : Rule} {l r : Text} (hfits : rule.Fits l r) (hrest : l ++ r = c.rest) (kind : Kind) :
    (⟨kind, l, c.loc⟩ : Token).StandsIn src before r := by
  have hpast := h.past hfits hrest
  have hsplits : Splits before (l ++ r) := hrest ▸ h.splits
  have hbefore : pieces (before ++ l) = pieces before ++ pieces l := hsplits.of_append
  have hbehind : pieces (before ++ l ++ r) = pieces (before ++ l) ++ pieces r := hpast.splits
  have htext : before ++ l ++ r = src := hpast.text
  refine ⟨htext, ?_, h.loc, hpast.loc⟩
  rw [← htext, hbehind, hbefore]

/-- What one call hands out stands in the text.  A token leaves the cursor just past it, and an
error leaves it where it was found. -/
lemma Cursor.standsIn_of_next {src : Text} {c : Cursor} (h : (ofText src).Reaches c) :
    (∀ t, c.next.1 = .ok (some t) →
      ∃ before behind, t.StandsIn src before behind ∧ c.next.2 = ⟨behind, t.stop⟩) ∧
    ∀ e, c.next.1 = .error e → c.next.2 = ⟨e.near, e.loc⟩ := by
  obtain ⟨c₀, hreach, ⟨rule, kind, l, r, hfirst, -, hnext⟩ | ⟨-, hnext⟩⟩ := c.next_cases
  · rw [hnext]
    refine ⟨?_, by simp⟩
    rintro t ⟨rfl⟩
    obtain ⟨hfits, hrest⟩ := firstCut?_table_eq_some_iff.1 hfirst
    obtain ⟨before, hbefore⟩ := exists_standsIn_of_reaches (h.trans hreach)
    exact ⟨before, r, hbefore.token hfits hrest kind, rfl⟩
  · rw [hnext]
    by_cases hrest : c₀.rest = []
    · simp [hrest]
    · refine ⟨by simp [hrest], ?_⟩
      intro e he
      obtain rfl : (⟨c₀.loc, c₀.rest⟩ : LexicalError) = e := by simpa [hrest] using he
      rfl

/-- Call after call, a cursor on a text hands out tokens whose locations are found by decoding the
text before them as a whole, and stands just past each of them.  A lexical error has the location
found in the same way for the text that it could not cut.  At the end of every lexeme, comments and
blanks included, no character reaches over the place where the cursor stands. -/
theorem locations_of_calls (src : Text) :
    (∀ n t, (Cursor.ofText src).answer n = .ok (some t) →
      ∃ before behind, t.StandsIn src before behind ∧
        (Cursor.ofText src).afterCalls (n + 1) = ⟨behind, t.stop⟩) ∧
    (∀ n e, (Cursor.ofText src).answer n = .error e →
      ∃ before, before ++ e.near = src ∧ pieces before ++ pieces e.near = pieces src ∧
        e.loc = locate before) ∧
    ∀ c, (Cursor.ofText src).Reaches c →
      ∃ before, before ++ c.rest = src ∧ pieces before ++ pieces c.rest = pieces src ∧
        c.loc = locate before := by
  have hplace : ∀ c, (Cursor.ofText src).Reaches c → ∃ before, before ++ c.rest = src ∧
      pieces before ++ pieces c.rest = pieces src ∧ c.loc = locate before := by
    intro c hc
    obtain ⟨before, hbefore⟩ := Cursor.exists_standsIn_of_reaches hc
    exact ⟨before, hbefore.text, by rw [← hbefore.text, hbefore.splits], hbefore.loc⟩
  refine ⟨?_, ?_, hplace⟩
  · intro n t ht
    rw [Cursor.afterCalls_succ]
    exact (Cursor.standsIn_of_next (Cursor.reaches_afterCalls _ n)).1 t ht
  · intro n e he
    have hreach := Cursor.reaches_afterCalls (Cursor.ofText src) n
    have hstuck := (Cursor.standsIn_of_next hreach).2 e he
    have hnext := hplace _ (hreach.trans (Cursor.reaches_next _))
    rwa [hstuck] at hnext

/-- A comment that ends in two bytes of an unfinished character, a string over two lines with a
whole character and a stray byte in it, and a character that begins no lexeme. -/
def brokenText : Text :=
  [0x2F, 0x2F, 0xE2, 0x82, 0x0A, 0x27, 0xC3, 0xA9, 0x0A, 0xFF, 0x27, 0x40]

/-- The string of `brokenText`. -/
def brokenString : Token := ⟨.string, [0x27, 0xC3, 0xA9, 0x0A, 0xFF, 0x27], ⟨2, 1⟩⟩

/-- The string stands on the second line, and what cannot be cut behind it in the third column of
the third line. -/
theorem locations_of_brokenText :
    (Cursor.ofText brokenText).answer 0 = .ok (some brokenString) ∧
      (∃ before behind, brokenString.StandsIn brokenText before behind ∧
        (Cursor.ofText brokenText).afterCalls 1 = ⟨behind, brokenString.stop⟩) ∧
      (Cursor.ofText brokenText).answer 1 = .error ⟨⟨3, 3⟩, utf8 "@"⟩ ∧
      ∃ before, before ++ utf8 "@" = brokenText ∧
        pieces before ++ pieces (utf8 "@") = pieces brokenText ∧ ⟨3, 3⟩ = locate before := by
  have hstring : (Cursor.ofText brokenText).answer 0 = .ok (some brokenString) := by
    decide +kernel
  have herror : (Cursor.ofText brokenText).answer 1 = .error ⟨⟨3, 3⟩, utf8 "@"⟩ := by
    decide +kernel
  obtain ⟨htokens, herrors, -⟩ := locations_of_calls brokenText
  exact ⟨hstring, htokens 0 _ hstring, herror, herrors 1 _ herror⟩

end ExprLang
