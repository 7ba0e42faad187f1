import ExprLang.Lexical.Cursor
import Mathlib.Data.List.TakeWhile
import Mathlib.Tactic.Lemma

/-!
# What may stand at the front of a text

`Rule.Fits rule l r` says what a lexeme `l` of a rule looks like in front of the rest `r` of a text,
without saying how it is found: comments and runs end where they have to, strings are closed by
their own quote, and a slash is an operator only where it opens no comment.

A rule cuts off what fits (`Rule.Fits.cut?`) and nothing else (`Rule.fits_of_cut?`); only the
operator rule, which knows nothing of comments, would take a slash that opens one.  The first byte
of a text tells the rules apart up to the slash (`Rule.eq_or_comment_of_cut?`), so at most one
lexeme of one rule fits at the front of a text (`Rule.Fits.unique`), and any table that holds all
rules and tries both comments before it settles on an operator finds it
(`firstCut?_eq_some_iff_of`).
-/

namespace ExprLang

/-- The two bytes that close a block comment. -/
def closing : Text := [0x2A, 0x2F]

/-- The lexemes of a rule that may stand in front of a rest. -/
def Rule.Fits : Rule → Text → Text → Prop
  | .lineComment, l, r =>
    (∃ body, l = 0x2F :: 0x2F :: body ∧ ∀ b ∈ body, isLineEnd b = false) ∧
      ∀ b, r.head? = some b → isLineEnd b
  | .blockComment, l, _ =>
    ∃ body, l = 0x2F :: 0x2A :: (body ++ closing) ∧ ¬ closing <:+: body ++ [0x2A]
  | .blanks, l, r =>
    (∃ cs : List Char, cs ≠ [] ∧ l = Text.ofChars cs ∧ ∀ c ∈ cs, isBlank c) ∧
      ∀ c, isBlank c → ¬ String.utf8EncodeChar c <+: r
  | .number, l, r =>
    l ≠ [] ∧ (∀ b ∈ l, isDigit b) ∧ ∀ b, r.head? = some b → isDigit b = false
  | .string, l, _ => ∃ q body, l = q :: (body ++ [q]) ∧ isQuote q ∧ q ∉ body
  | .semicolon, l, _ => l = [0x3B]
  | .operator, l, r =>
    ∃ b, l = [b] ∧ isOperator b ∧
      (b = 0x2F → r.head? ≠ some 0x2F ∧ ∀ behind, r = 0x2A :: behind → ¬ closing <:+: behind)

/-! ## Runs of bytes -/

/-- The longest run of a class, and what is behind it. -/
lemma takeWhile_dropWhile_iff {p : UInt8 → Bool} {t l r : Text} :
    t.takeWhile p = l ∧ t.dropWhile p = r ↔
      l ++ r = t ∧ (∀ b ∈ l, p b) ∧ ∀ b, r.head? = some b → p b = false := by
  constructor
  · rintro ⟨rfl, rfl⟩
    refine ⟨List.takeWhile_append_dropWhile, fun b hb => List.mem_takeWhile_imp hb, ?_⟩
    intro b hb
    simpa [hb] using List.head?_dropWhile_not p t
  · rintro ⟨rfl, hl, hr⟩
    rw [List.takeWhile_append_of_pos hl, List.dropWhile_append_of_pos hl]
    cases r with
    | nil => simp
    | cons b r => simp [hr b rfl]

/-- Two slashes and a run without line ends make a line comment. -/
lemma cutLineComment?_eq_some_iff {t l r : Text} :
    cutLineComment? t = some (l, r) ↔ Rule.Fits .lineComment l r ∧ l ++ r = t := by
  constructor
  · intro h
    refine ⟨?_, append_of_cutLineComment? h⟩
    unfold cutLineComment? at h
    split at h
    · next u =>
      obtain ⟨rfl, rfl⟩ := Prod.mk.inj (Option.some.inj h)
      obtain ⟨-, hl, hr⟩ := takeWhile_dropWhile_iff (p := (!isLineEnd ·)) (t := u) |>.1 ⟨rfl, rfl⟩
      exact ⟨⟨_, rfl, by simpa using hl⟩, by simpa using hr⟩
    · cases h
  · rintro ⟨⟨⟨body, rfl, hbody⟩, hr⟩, rfl⟩
    obtain ⟨htake, hdrop⟩ := takeWhile_dropWhile_iff (p := (!isLineEnd ·)) |>.2
      ⟨rfl, by simpa using hbody, by simpa using hr⟩
    simp only [List.cons_append, cutLineComment?, htake, hdrop]

/-- A run of digits makes a number. -/
lemma cutNumber?_eq_some_iff {t l r : Text} :
    cutNumber? t = some (l, r) ↔ Rule.Fits .number l r ∧ l ++ r = t := by
  unfold cutNumber?
  constructor
  · intro h
    split at h
    · cases h
    · next hne =>
      obtain ⟨rfl, rfl⟩ := Prod.mk.inj (Option.some.inj h)
      obtain ⟨happ, hl, hr⟩ := takeWhile_dropWhile_iff.1 (And.intro rfl rfl)
      exact ⟨⟨hne, hl, hr⟩, happ⟩
  · rintro ⟨⟨hne, hl, hr⟩, rfl⟩
    obtain ⟨htake, hdrop⟩ := takeWhile_dropWhile_iff.2 ⟨rfl, hl, hr⟩
    rw [htake, hdrop, if_neg hne]

/-- A quote, a run without it, and the same quote make a string. -/
lemma cutString?_eq_some_iff {t l r : Text} :
    cutString? t = some (l, r) ↔ Rule.Fits .string l r ∧ l ++ r = t := by
  constructor
  · intro h
    refine ⟨?_, (append_of_cutString? h).1⟩
    unfold cutString? at h
    split at h
    · next q u =>
      split at h
      · next hq =>
        split at h
        · cases h
        · next close behind hdrop =>
          obtain ⟨rfl, rfl⟩ := Prod.mk.inj (Option.some.inj h)
          obtain ⟨-, hbody, hclose⟩ := takeWhile_dropWhile_iff.1 (And.intro rfl hdrop)
          obtain rfl : close = q := by simpa using hclose close rfl
          refine ⟨close, _, rfl, hq, ?_⟩
          intro hmem
          simpa using hbody close hmem
      · cases h
    · cases h
  · rintro ⟨⟨q, body, rfl, hq, hbody⟩, rfl⟩
    have hne : ∀ b ∈ body, b != q := by
      intro b hb
      simpa using fun hbq : b = q => hbody (hbq ▸ hb)
    obtain ⟨htake, hdrop⟩ := takeWhile_dropWhile_iff (p := (· != q)) (r := q :: r) |>.2
      ⟨rfl, hne, by simp⟩
    have happ : q :: (body ++ [q]) ++ r = q :: (body ++ q :: r) := by simp
    simp only [happ, cutString?, hq, if_true, htake, hdrop]

/-- One byte of a class makes a lexeme. -/
lemma cutByte?_eq_some_iff {p : UInt8 → Bool} {t l r : Text} :
    cutByte? p t = some (l, r) ↔ (∃ b, l = [b] ∧ p b) ∧ l ++ r = t := by
  constructor
  · intro h
    refine ⟨?_, (append_of_cutByte? h).1⟩
    unfold cutByte? at h
    split at h
    · next b u =>
      split at h
      · next hb =>
        obtain ⟨rfl, rfl⟩ := Prod.mk.inj (Option.some.inj h)
        exact ⟨b, rfl, hb⟩
      · cases h
    · cases h
  · rintro ⟨⟨b, rfl, hb⟩, rfl⟩
    simp [cutByte?, hb]

/-! ## Block comments -/

/-- No closing bytes begin at a byte that does not, so none is found there. -/
lemma closing_infix_cons_iff {b : UInt8} {u : Text} (h : ∀ v, b = 0x2A → u = 0x2F :: v → False) :
    closing <:+: b :: u ↔ closing <:+: u := by
  rw [List.infix_cons_iff, or_iff_right]
  intro hprefix
  simp only [closing, List.cons_prefix_cons] at hprefix
  obtain ⟨hb, v, hu⟩ := hprefix
  exact h v hb.symm (by simpa using hu.symm)

/-- Where closing bytes are found, they are the first ones. -/
lemma cutClosing?_eq_some_iff {t l r : Text} :
    cutClosing? t = some (l, r) ↔
      (∃ body, l = body ++ closing ∧ ¬ closing <:+: body ++ [0x2A]) ∧ l ++ r = t := by
  fun_induction cutClosing? t generalizing l r with
  | case1 u =>
    constructor
    · intro h
      obtain ⟨rfl, rfl⟩ := Prod.mk.inj (Option.some.inj h)
      exact ⟨⟨[], rfl, by decide⟩, rfl⟩
    · rintro ⟨⟨body, rfl, hbody⟩, happ⟩
      -- a body that is not empty would begin with the closing bytes
      rcases body with _ | ⟨b, _ | ⟨b', body⟩⟩
      · simpa [closing, eq_comm] using happ
      · simp [closing] at happ
      · obtain ⟨rfl, rfl, -⟩ : b = 0x2A ∧ b' = 0x2F ∧ _ := by simpa using happ
        exact absurd ⟨[], body ++ [0x2A], by simp [closing]⟩ hbody
  | case2 b u hne ih =>
    constructor
    · intro h
      obtain ⟨⟨l', r'⟩, hu, hlr⟩ := Option.map_eq_some_iff.1 h
      obtain ⟨rfl, rfl⟩ := Prod.mk.inj hlr
      obtain ⟨⟨body, rfl, hbody⟩, happ⟩ := ih.1 hu
      refine ⟨⟨b :: body, rfl, ?_⟩, by simp [← happ]⟩
      rw [List.cons_append, closing_infix_cons_iff]
      · exact hbody
      · rintro v rfl hv
        obtain ⟨body', rfl⟩ : ∃ body', body = 0x2F :: body' := by
          cases body with
          | nil => simp at hv
          | cons b body => exact ⟨body, by simpa using (List.cons.inj hv).1⟩
        exact hne _ rfl happ.symm
    · rintro ⟨⟨body, rfl, hbody⟩, happ⟩
      cases body with
      | nil =>
        obtain ⟨rfl, rfl⟩ : b = 0x2A ∧ u = 0x2F :: r := by simpa [closing, eq_comm] using happ
        exact (hne r rfl rfl).elim
      | cons b' body =>
        obtain ⟨rfl, rfl⟩ := List.cons.inj happ
        rw [ih.2 ⟨⟨body, rfl, fun h => hbody (List.infix_cons h)⟩, rfl⟩]
        rfl
  | case3 =>
    simp only [reduceCtorEq, List.append_eq_nil_iff, false_iff]
    rintro ⟨⟨body, rfl, -⟩, hnil, -⟩
    simp [closing] at hnil

/-- Closing bytes are found wherever there are any. -/
lemma cutClosing?_eq_none_iff {t : Text} : cutClosing? t = none ↔ ¬ closing <:+: t := by
  fun_induction cutClosing? t with
  | case1 u => simpa using ⟨[], u, rfl⟩
  | case2 b u hne ih => rw [Option.map_eq_none_iff, ih, closing_infix_cons_iff hne]
  | case3 => simp [closing]

/-- A slash and a star, and everything through the first closing bytes, make a block comment. -/
lemma cutBlockComment?_eq_some_iff {t l r : Text} :
    cutBlockComment? t = some (l, r) ↔ Rule.Fits .blockComment l r ∧ l ++ r = t := by
  constructor
  · intro h
    refine ⟨?_, append_of_cutBlockComment? h⟩
    unfold cutBlockComment? at h
    split at h
    · next u =>
      obtain ⟨⟨l', r'⟩, hu, hlr⟩ := Option.map_eq_some_iff.1 h
      obtain ⟨rfl, rfl⟩ := Prod.mk.inj hlr
      obtain ⟨⟨body, rfl, hbody⟩, -⟩ := cutClosing?_eq_some_iff.1 hu
      exact ⟨body, rfl, hbody⟩
    · cases h
  · rintro ⟨⟨body, rfl, hbody⟩, rfl⟩
    have hu : cutClosing? (body ++ closing ++ r) = some (body ++ closing, r) :=
      cutClosing?_eq_some_iff.2 ⟨⟨body, rfl, hbody⟩, rfl⟩
    simp only [List.cons_append, cutBlockComment?, hu, Option.map_some]

/-! ## Blanks -/

/-- A blank at the front begins the run of blanks. -/
lemma spanBlanks_utf8EncodeChar_append {c : Char} (hc : isBlank c) (t : Text) :
    spanBlanks (String.utf8EncodeChar c ++ t) =
      (String.utf8EncodeChar c ++ (spanBlanks t).1, (spanBlanks t).2) := by
  have hfirst : firstChar? (String.utf8EncodeChar c ++ t) = some c :=
    firstChar?_eq_some_iff.2 ⟨t, rfl⟩
  rw [spanBlanks]
  split
  · next c' hc' =>
    obtain rfl : c = c' := Option.some.inj (hfirst.symm.trans hc')
    rw [if_pos hc, ← String.length_utf8EncodeChar, List.drop_left]
  · next hnone => simp [hfirst] at hnone

/-- Where no blank stands, the run of blanks is empty. -/
lemma spanBlanks_of_forall_not_prefix {t : Text}
    (h : ∀ c, isBlank c → ¬ String.utf8EncodeChar c <+: t) : spanBlanks t = ([], t) := by
  rw [spanBlanks]
  split
  · next c hc =>
    obtain ⟨r, hr⟩ := firstChar?_eq_some_iff.1 hc
    have hnot : ¬ isBlank c := fun hblank => h c hblank ⟨r, hr.symm⟩
    rw [if_neg hnot]
  · rfl

/-- The run of blanks consists of blanks, and none follows it. -/
lemma spanBlanks_spec (t : Text) :
    (∃ cs : List Char, (spanBlanks t).1 = Text.ofChars cs ∧ ∀ c ∈ cs, isBlank c) ∧
      ∀ c, isBlank c → ¬ String.utf8EncodeChar c <+: (spanBlanks t).2 := by
  fun_induction spanBlanks t with
  | case1 t c h hb cut ih =>
    obtain ⟨⟨cs, hcs, hblank⟩, hnot⟩ := ih
    refine ⟨⟨c :: cs, ?_, ?_⟩, hnot⟩
    · rw [Text.ofChars_cons, ← hcs]
    · intro c' hc'
      rcases List.mem_cons.1 hc' with rfl | hc'
      · exact hb
      · exact hblank c' hc'
  | case2 t c h hb =>
    refine ⟨⟨[], rfl, by simp⟩, ?_⟩
    rintro c' hc' ⟨r, hr⟩
    have hfirst := firstChar?_eq_some_iff.2 ⟨r, hr.symm⟩
    obtain rfl : c = c' := Option.some.inj (h.symm.trans hfirst)
    exact hb hc'
  | case3 t h =>
    refine ⟨⟨[], rfl, by simp⟩, ?_⟩
    rintro c' - ⟨r, hr⟩
    have hfirst := firstChar?_eq_some_iff.2 ⟨r, hr.symm⟩
    rw [h] at hfirst
    cases hfirst

/-- The run of blanks is all of a list of blanks that no blank follows. -/
lemma spanBlanks_ofChars_append {cs : List Char} (hcs : ∀ c ∈ cs, isBlank c) {r : Text}
    (hr : ∀ c, isBlank c → ¬ String.utf8EncodeChar c <+: r) :
    spanBlanks (Text.ofChars cs ++ r) = (Text.ofChars cs, r) := by
  induction cs with
  | nil => exact spanBlanks_of_forall_not_prefix hr
  | cons c cs ih =>
    have hcs' : ∀ c ∈ cs, isBlank c := fun c hc => hcs c (List.mem_cons_of_mem _ hc)
    rw [Text.ofChars_cons, List.append_assoc, spanBlanks_utf8EncodeChar_append (hcs c (by simp)),
      ih hcs']

/-- Blanks that no blank follows make a lexeme. -/
lemma cutBlanks?_eq_some_iff {t l r : Text} :
    cutBlanks? t = some (l, r) ↔ Rule.Fits .blanks l r ∧ l ++ r = t := by
  constructor
  · intro h
    obtain ⟨happ, hne⟩ := append_of_cutBlanks? h
    refine ⟨?_, happ⟩
    obtain ⟨⟨cs, hcs, hblank⟩, hnot⟩ := spanBlanks_spec t
    have hspan : spanBlanks t = (l, r) := by
      unfold cutBlanks? at h
      split at h
      · cases h
      · exact Option.some.inj h
    rw [hspan] at hcs hnot
    refine ⟨⟨cs, ?_, hcs, hblank⟩, hnot⟩
    rintro rfl
    exact hne hcs
  · rintro ⟨⟨⟨cs, hne, rfl, hblank⟩, hr⟩, rfl⟩
    rw [cutBlanks?, spanBlanks_ofChars_append hblank hr, if_neg]
    cases cs with
    | nil => exact absurd rfl hne
    | cons c cs => simp

/-! ## The first byte tells the rules apart -/

/-- The classes of first bytes. -/
inductive Lead where
  | digit
  | quote
  | semicolon
  | operator
  /-- Any other byte. -/
  | other
  deriving DecidableEq

/-- The class of a first byte. -/
def lead (b : UInt8) : Lead :=
  if isDigit b then .digit
  else if isQuote b then .quote
  else if isSemicolon b then .semicolon
  else if isOperator b then .operator
  else .other

/-- The class of the first bytes of the lexemes of a rule.  Comments begin with an operator. -/
def Rule.lead : Rule → Lead
  | .lineComment | .blockComment | .operator => .operator
  | .blanks => .other
  | .number => .digit
  | .string => .quote
  | .semicolon => .semicolon

/-- The bytes of an encoded character are the character itself, or beyond ASCII. -/
lemma toNat_of_mem_utf8EncodeChar {c : Char} {b : UInt8} (h : b ∈ String.utf8EncodeChar c) :
    b.toNat = c.toNat ∨ 0x80 ≤ b.toNat := by
  rw [← Char.toNat_val]
  unfold String.utf8EncodeChar at h
  simp only at h
  split at h
  · obtain rfl := List.mem_singleton.1 h
    left
    rw [UInt8.toNat_ofNat']
    omega
  · -- every byte of a longer encoding has its high bit set
    right
    split at h
    · simp only [List.mem_cons, List.not_mem_nil, or_false] at h
      rcases h with rfl | rfl <;> rw [UInt8.toNat_ofNat'] <;> omega
    split at h
    · simp only [List.mem_cons, List.not_mem_nil, or_false] at h
      rcases h with rfl | rfl | rfl <;> rw [UInt8.toNat_ofNat'] <;> omega
    · simp only [List.mem_cons, List.not_mem_nil, or_false] at h
      rcases h with rfl | rfl | rfl | rfl <;> rw [UInt8.toNat_ofNat'] <;> omega

/-- A blank begins with a byte of no other class. -/
lemma lead_of_isBlank {c : Char} (hc : isBlank c) {b : UInt8} {u : Text}
    (h : String.utf8EncodeChar c = b :: u) : lead b = .other := by
  have hb : (9 ≤ b.toNat ∧ b.toNat ≤ 13) ∨ b.toNat = 32 ∨ 128 ≤ b.toNat := by
    have hmem : b ∈ String.utf8EncodeChar c := by simp [h]
    have hnat := toNat_of_mem_utf8EncodeChar hmem
    simp [isBlank] at hc
    omega
  simp only [lead, isDigit, isQuote, isSemicolon, isOperator, UInt8.le_iff_toNat_le,
    ← UInt8.toNat_inj, Bool.and_eq_true, Bool.or_eq_true, decide_eq_true_eq, beq_iff_eq,
    UInt8.reduceToNat]
  rw [if_neg (by omega), if_neg (by omega), if_neg (by omega), if_neg (by omega)]

/-- The first byte of a text from which a rule cuts a lexeme is in the class of that rule. -/
lemma Rule.lead_of_cut? {rule : Rule} {t l r : Text} (h : rule.cut? t = some (l, r)) :
    ∃ b u, t = b :: u ∧ ExprLang.lead b = rule.lead := by
  cases rule with
  | lineComment =>
    obtain ⟨⟨⟨body, rfl, -⟩, -⟩, rfl⟩ := cutLineComment?_eq_some_iff.1 h
    exact ⟨_, _, rfl, rfl⟩
  | blockComment =>
    obtain ⟨⟨body, rfl, -⟩, rfl⟩ := cutBlockComment?_eq_some_iff.1 h
    exact ⟨_, _, rfl, rfl⟩
  | blanks =>
    obtain ⟨⟨⟨cs, hne, rfl, hblank⟩, -⟩, rfl⟩ := cutBlanks?_eq_some_iff.1 h
    obtain ⟨c, cs, rfl⟩ := List.exists_cons_of_ne_nil hne
    obtain ⟨b, u, hbu⟩ := List.exists_cons_of_ne_nil (String.utf8EncodeChar_ne_nil (c := c))
    refine ⟨b, u ++ Text.ofChars cs ++ r, ?_, lead_of_isBlank (hblank c (by simp)) hbu⟩
    rw [Text.ofChars_cons, hbu]
    rfl
  | number =>
    obtain ⟨⟨hne, hdigit, -⟩, rfl⟩ := cutNumber?_eq_some_iff.1 h
    obtain ⟨b, u, rfl⟩ := List.exists_cons_of_ne_nil hne
    refine ⟨b, _, rfl, ?_⟩
    rw [ExprLang.lead, if_pos (hdigit b (by simp))]
    rfl
  | string =>
    obtain ⟨⟨q, body, rfl, hq, -⟩, rfl⟩ := cutString?_eq_some_iff.1 h
    refine ⟨q, _, rfl, ?_⟩
    rcases (by simpa [isQuote] using hq : q = 0x22 ∨ q = 0x27) with rfl | rfl <;> rfl
  | semicolon =>
    obtain ⟨⟨b, rfl, hb⟩, rfl⟩ := cutByte?_eq_some_iff.1 h
    refine ⟨b, _, rfl, ?_⟩
    obtain rfl : b = 0x3B := by simpa [isSemicolon] using hb
    rfl
  | operator =>
    obtain ⟨⟨b, rfl, hb⟩, rfl⟩ := cutByte?_eq_some_iff.1 h
    refine ⟨b, _, rfl, ?_⟩
    rcases (by simpa [isOperator] using hb : ((b = 0x2B ∨ b = 0x2D) ∨ b = 0x2A) ∨ b = 0x2F) with
      ((rfl | rfl) | rfl) | rfl <;> rfl

/-- At most one rule applies to a text, but the operator rule applies wherever a comment does. -/
lemma Rule.eq_or_comment_of_cut? {rule rule' : Rule} {t : Text} {cut cut' : Text × Text}
    (h : rule.cut? t = some cut) (h' : rule'.cut? t = some cut') :
    rule = rule' ∨ (rule = .operator ∧ (rule' = .lineComment ∨ rule' = .blockComment)) ∨
      (rule' = .operator ∧ (rule = .lineComment ∨ rule = .blockComment)) := by
  have hlead : rule.lead = rule'.lead := by
    obtain ⟨b, u, heq, hb⟩ := Rule.lead_of_cut? h
    obtain ⟨b', u', heq', hb'⟩ := Rule.lead_of_cut? h'
    obtain rfl : b = b' := (List.cons.inj (heq.symm.trans heq')).1
    exact hb.symm.trans hb'
  have hcomment : cutLineComment? t = none ∨ cutBlockComment? t = none := by
    unfold cutLineComment?
    split
    · exact .inr rfl
    · exact .inl rfl
  cases rule with
  | lineComment => cases rule' <;> simp_all [Rule.lead, Rule.cut?]
  | blockComment => cases rule' <;> simp_all [Rule.lead, Rule.cut?]
  | _ => cases rule' <;> simp_all [Rule.lead]

/-! ## At most one lexeme fits -/

/-- A lexeme that fits is cut off by its rule. -/
lemma Rule.Fits.cut? {rule : Rule} {l r : Text} (h : rule.Fits l r) :
    rule.cut? (l ++ r) = some (l, r) := by
  cases rule with
  | lineComment => exact cutLineComment?_eq_some_iff.2 ⟨h, rfl⟩
  | blockComment => exact cutBlockComment?_eq_some_iff.2 ⟨h, rfl⟩
  | blanks => exact cutBlanks?_eq_some_iff.2 ⟨h, rfl⟩
  | number => exact cutNumber?_eq_some_iff.2 ⟨h, rfl⟩
  | string => exact cutString?_eq_some_iff.2 ⟨h, rfl⟩
  | semicolon =>
    obtain rfl : l = [0x3B] := h
    exact cutByte?_eq_some_iff (p := isSemicolon) |>.2 ⟨⟨0x3B, rfl, rfl⟩, rfl⟩
  | operator =>
    obtain ⟨b, rfl, hb, -⟩ := h
    exact cutByte?_eq_some_iff.2 ⟨⟨b, rfl, hb⟩, rfl⟩

/-- What a rule cuts off fits; of a slash, the operator rule has to be told that it opens no
comment. -/
lemma Rule.fits_of_cut? {rule : Rule} {t l r : Text} (h : rule.cut? t = some (l, r))
    (hop : rule = .operator → cutLineComment? t = none ∧ cutBlockComment? t = none) :
    rule.Fits l r := by
  cases rule with
  | lineComment => exact (cutLineComment?_eq_some_iff.1 h).1
  | blockComment => exact (cutBlockComment?_eq_some_iff.1 h).1
  | blanks => exact (cutBlanks?_eq_some_iff.1 h).1
  | number => exact (cutNumber?_eq_some_iff.1 h).1
  | string => exact (cutString?_eq_some_iff.1 h).1
  | semicolon =>
    obtain ⟨⟨b, rfl, hb⟩, -⟩ := cutByte?_eq_some_iff.1 h
    obtain rfl : b = 0x3B := by simpa [isSemicolon] using hb
    rfl
  | operator =>
    obtain ⟨⟨b, rfl, hb⟩, rfl⟩ := cutByte?_eq_some_iff.1 h
    obtain ⟨hline, hblock⟩ := hop rfl
    refine ⟨b, rfl, hb, ?_⟩
    rintro rfl
    constructor
    · intro hhead
      cases r with
      | nil => cases hhead
      | cons b r =>
        obtain rfl : b = 0x2F := Option.some.inj hhead
        cases hline
    · rintro behind rfl hinfix
      have hnone : cutClosing? behind = none := by simpa [cutBlockComment?] using hblock
      exact cutClosing?_eq_none_iff.1 hnone hinfix

/-- Where a lexeme of an operator fits, no comment does. -/
lemma Rule.Fits.not_comment {l r : Text} (h : Rule.Fits .operator l r) :
    cutLineComment? (l ++ r) = none ∧ cutBlockComment? (l ++ r) = none := by
  obtain ⟨b, rfl, -, hslash⟩ := h
  constructor
  · refine Option.eq_none_iff_forall_ne_some.2 ?_
    rintro ⟨l', r'⟩ hcut
    obtain ⟨⟨⟨body, rfl, -⟩, -⟩, happ⟩ := cutLineComment?_eq_some_iff.1 hcut
    obtain ⟨rfl, rfl⟩ := List.cons.inj happ
    exact (hslash rfl).1 rfl
  · refine Option.eq_none_iff_forall_ne_some.2 ?_
    rintro ⟨l', r'⟩ hcut
    obtain ⟨⟨body, rfl, -⟩, happ⟩ := cutBlockComment?_eq_some_iff.1 hcut
    obtain ⟨rfl, rfl⟩ := List.cons.inj happ
    exact (hslash rfl).2 _ rfl ⟨body, r', rfl⟩

/-- At the front of a text at most one lexeme of one rule fits. -/
lemma Rule.Fits.unique {rule rule' : Rule} {l r l' r' : Text} (h : rule.Fits l r)
    (h' : rule'.Fits l' r') (happ : l ++ r = l' ++ r') : rule = rule' ∧ l = l' ∧ r = r' := by
  have hcut := h.cut?
  have hcut' := h'.cut?
  rw [← happ] at hcut'
  rcases Rule.eq_or_comment_of_cut? hcut hcut' with rfl | ⟨rfl, hcomment⟩ | ⟨rfl, hcomment⟩
  · rw [hcut] at hcut'
    simpa using hcut'
  · obtain ⟨hline, hblock⟩ := h.not_comment
    rcases hcomment with rfl | rfl
    · simp [Rule.cut?, hline] at hcut'
    · simp [Rule.cut?, hblock] at hcut'
  · obtain ⟨hline, hblock⟩ := h'.not_comment
    rw [← happ] at hline hblock
    rcases hcomment with rfl | rfl
    · simp [Rule.cut?, hline] at hcut
    · simp [Rule.cut?, hblock] at hcut

/-! ## Tables of rules -/

/-- Every rule is in the table. -/
lemma Rule.mem_table (rule : Rule) : rule ∈ Rule.table := by
  cases rule <;> simp [Rule.table]

/-- A table finds something where one of its rules applies. -/
lemma exists_firstCut?_of_cut? {table : List Rule} {t : Text} {rule : Rule} {cut : Text × Text}
    (hmem : rule ∈ table) (hcut : rule.cut? t = some cut) :
    ∃ rule' cut', firstCut? table t = some (rule', cut') := by
  have hsome : firstCut? table t ≠ none := by
    intro hnone
    have hrule := List.findSome?_eq_none_iff.1 hnone rule hmem
    rw [hcut] at hrule
    cases hrule
  obtain ⟨⟨rule', cut'⟩, hfirst⟩ := Option.ne_none_iff_exists'.1 hsome
  exact ⟨rule', cut', hfirst⟩

/-- A table that holds every rule, and settles on an operator only where no comment begins, finds
exactly the lexeme that fits. -/
lemma firstCut?_eq_some_iff_of {table : List Rule} (hall : ∀ rule, rule ∈ table)
    (hop : ∀ t cut, firstCut? table t = some (.operator, cut) →
      cutLineComment? t = none ∧ cutBlockComment? t = none)
    {t : Text} {rule : Rule} {l r : Text} :
    firstCut? table t = some (rule, l, r) ↔ rule.Fits l r ∧ l ++ r = t := by
  have hfits : ∀ {rule : Rule} {l r : Text}, firstCut? table t = some (rule, l, r) →
      rule.Fits l r ∧ l ++ r = t := by
    intro rule l r h
    have hcut := (cut?_of_firstCut? h).2
    refine ⟨Rule.fits_of_cut? hcut ?_, Rule.append_of_cut? hcut⟩
    rintro rfl
    exact hop t (l, r) h
  constructor
  · exact hfits
  · rintro ⟨h, rfl⟩
    -- the table finds something, since the rule applies, and only one lexeme fits
    obtain ⟨rule', ⟨l', r'⟩, hfirst⟩ := exists_firstCut?_of_cut? (hall rule) h.cut?
    obtain ⟨h', happ⟩ := hfits hfirst
    obtain ⟨rfl, rfl, rfl⟩ := h.unique h' happ.symm
    exact hfirst

/-- The rules in their order find exactly the lexeme that fits. -/
lemma firstCut?_table_eq_some_iff {t : Text} {rule : Rule} {l r : Text} :
    firstCut? Rule.table t = some (rule, l, r) ↔ rule.Fits l r ∧ l ++ r = t := by
  refine firstCut?_eq_some_iff_of Rule.mem_table ?_
  intro t cut h
  cases hline : cutLineComment? t with
  | some cut' => simp [firstCut?, Rule.table, Rule.cut?, hline] at h
  | none =>
    cases hblock : cutBlockComment? t with
    | some cut' => simp [firstCut?, Rule.table, Rule.cut?, hline, hblock] at h
    | none => exact ⟨rfl, rfl⟩

end ExprLang
