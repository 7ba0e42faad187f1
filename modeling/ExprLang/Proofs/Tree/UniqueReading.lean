import ExprLang.Proofs.Grammar.Spelling
import ExprLang.Proofs.Number.ReadBack
import ExprLang.Proofs.Text.Quoting

/-!
# Unique reading of the parenthesised form

The parenthesised form of a complete program determines the program.  What tells the forms of
expressions apart are the delimiters: operators, parentheses, semicolons, quotes and line feeds.  A
number is written without them, but for its sign, so it ends where the next delimiter stands
(`Binary64.eq_of_plain_append`); a quoted text ends where its quote is closed; and an operator
between two operands is found behind the first one.  So an expression in front of a delimiter can be
cut off in one way only (`Expr.eq_of_canonical_append`), by induction on the expression, and the
statements of a program follow one by one (`canonical_injective`).
-/

namespace ExprLang

/-! ## Delimiters -/

/-- An operator, a parenthesis, a semicolon, a quote or a line feed. -/
def isDelimiter (b : UInt8) : Bool :=
  isOperator b || b == 0x28 || b == 0x29 || isSemicolon b || isQuote b || b == 0x0A

/-- The text begins with a delimiter. -/
def IsDelimited (t : Text) : Prop := ∃ b r, t = b :: r ∧ isDelimiter b

lemma isDelimited_cons {b : UInt8} (h : isDelimiter b) (r : Text) : IsDelimited (b :: r) :=
  ⟨b, r, rfl, h⟩

/-- Texts without delimiters end where a delimiter stands. -/
lemma eq_of_append_of_isDelimited {t t' r r' : Text} (ht : ∀ b ∈ t, isDelimiter b = false)
    (ht' : ∀ b ∈ t', isDelimiter b = false) (hr : IsDelimited r) (hr' : IsDelimited r')
    (h : t ++ r = t' ++ r') : t = t' ∧ r = r' := by
  have hspan {t r : Text} (ht : ∀ b ∈ t, isDelimiter b = false) (hr : IsDelimited r) :
      (t ++ r).takeWhile (!isDelimiter ·) = t := by
    obtain ⟨b, u, rfl, hb⟩ := hr
    have hstop : (!isDelimiter b) = false := by rw [hb]; rfl
    rw [List.takeWhile_append_of_pos (fun b hb => by rw [ht b hb]; rfl), List.takeWhile_cons, hstop]
    exact List.append_nil t
  have heq : t = t' := by rw [← hspan ht hr, h, hspan ht' hr']
  subst heq
  exact ⟨rfl, List.append_cancel_left h⟩

/-! ## Numbers -/

/-- The digits of a decimal with their point. -/
lemma Decimal.mem_positional {d : Decimal} (h : ∀ c ∈ d.digits, c.isDigit) {c : Char}
    (hc : c ∈ d.positional) : c.isDigit ∨ c = '.' := by
  have hzero {n : ℕ} (hmem : c ∈ List.replicate n '0') : c.isDigit :=
    Decimal.isDigit_of_mem_replicate_zero hmem
  simp only [Decimal.positional] at hc
  split_ifs at hc <;> simp only [List.mem_append, List.mem_cons, List.not_mem_nil, or_false] at hc
  · rcases hc with ((rfl | rfl) | hc) | hc
    · exact .inl rfl
    · exact .inr rfl
    · exact .inl (hzero hc)
    · exact .inl (h c hc)
  · rcases hc with (hc | rfl) | hc
    · exact .inl (h c (List.mem_of_mem_take hc))
    · exact .inr rfl
    · exact .inl (h c (List.mem_of_mem_drop hc))
  · rcases hc with hc | hc
    · exact .inl (h c hc)
    · exact .inl (hzero hc)

namespace Binary64

/-- No digit is a delimiter. -/
lemma isDelimiter_of_isDigit {b : UInt8} (h : isDigit b) : isDelimiter b = false := by
  have hrange := isDigit_iff.1 h
  simp only [isDelimiter, isOperator, isSemicolon, isQuote, Bool.or_eq_false_iff,
    beq_eq_false_iff_ne, ne_eq, ← UInt8.toNat_inj, UInt8.reduceToNat]
  omega

/-- The digits of a number are written without delimiters. -/
lemma isDelimiter_of_mem_digits {m : Magnitude} {b : UInt8}
    (hb : b ∈ Text.ofChars (plainLayout.digits m)) : isDelimiter b = false := by
  have hchar : ∀ c ∈ plainLayout.digits m, c.isDigit ∨ c = '.' := by
    rw [Layout.digits]
    by_cases hzero : m.mantissa = 0
    · rw [if_pos hzero]
      simp
    · have hpositional (e : ℤ) : plainLayout.positional e = true := rfl
      rw [if_neg hzero]
      simp only [hpositional, ↓reduceIte]
      exact fun c hc => Decimal.mem_positional (Decimal.isProper_shortest hzero).digit hc
  obtain ⟨c, hc, hbc⟩ := List.mem_flatMap.1 hb
  rcases hchar c hc with hdigit | rfl
  · obtain ⟨b', hb', -⟩ := exists_utf8EncodeChar_of_isDigit hdigit
    have hbytes : b ∈ Text.ofChars [c] := by simpa [hb'] using hbc
    exact isDelimiter_of_isDigit (isDigit_of_mem_ofChars (by simpa using hdigit) hbytes)
  · obtain rfl := List.mem_singleton.1 hbc
    rfl

/-- A number is an optional sign and at least one other byte, none of which is a delimiter. -/
lemma exists_plain_eq (v : Binary64) : ∃ (negative : Bool) (body : Text),
    v.plain = (if negative then [0x2D] else []) ++ body ∧ body ≠ [] ∧
      ∀ b ∈ body, isDelimiter b = false := by
  have hplain {t : Text} (h : t.any isDelimiter = false) : ∀ b ∈ t, isDelimiter b = false := by
    simpa using h
  match v with
  | .nan => exact ⟨false, utf8 "NaN", rfl, by decide, hplain (by decide)⟩
  | .infinite false => exact ⟨false, utf8 "Infinity", rfl, by decide, hplain (by decide)⟩
  | .infinite true => exact ⟨true, utf8 "Inf", rfl, by decide, hplain (by decide)⟩
  | .finite negative m =>
    obtain ⟨s, hchars, -⟩ := plainLayout.exists_spelling_digits m
    obtain ⟨b, t, ht, -⟩ := s.exists_ofChars_eq_cons
    refine ⟨negative, Text.ofChars (plainLayout.digits m), ?_, ?_, ?_⟩
    · rw [plain, Layout.text, Text.ofChars_append]
      cases negative <;> rfl
    · rw [← hchars, ht]
      exact List.cons_ne_nil b t
    · exact fun b hb => isDelimiter_of_mem_digits hb

/-- A number in front of a delimiter can be cut off in one way only. -/
lemma eq_of_plain_append {v v' : Binary64} {r r' : Text} (hr : IsDelimited r)
    (hr' : IsDelimited r') (h : v.plain ++ r = v'.plain ++ r') : v = v' ∧ r = r' := by
  obtain ⟨negative, body, hv, hne, hbody⟩ := v.exists_plain_eq
  obtain ⟨negative', body', hv', hne', hbody'⟩ := v'.exists_plain_eq
  -- a sign is a delimiter, which no body begins with
  have hsign {t t' r r' : Text} (hne : t ≠ []) (ht : ∀ b ∈ t, isDelimiter b = false) :
      t ++ r ≠ 0x2D :: (t' ++ r') := by
    obtain ⟨b, u, rfl⟩ := List.exists_cons_of_ne_nil hne
    intro h
    have hb := ht b (by simp)
    rw [(List.cons.inj h).1] at hb
    cases hb
  have hcut : body ++ r = body' ++ r' ∧ negative = negative' := by
    rw [hv, hv'] at h
    cases negative <;> cases negative'
    · exact ⟨h, rfl⟩
    · exact absurd h (hsign hne hbody)
    · exact absurd h.symm (hsign hne' hbody')
    · exact ⟨(List.cons.inj h).2, rfl⟩
  obtain ⟨hbodies, rfl⟩ := hcut
  obtain ⟨rfl, rfl⟩ := eq_of_append_of_isDelimited hbody hbody' hr hr' hbodies
  exact ⟨plain_injective (hv.trans hv'.symm), rfl⟩

end Binary64

/-! ## Texts -/

/-- A quoted text can be cut off in one way only. -/
lemma eq_of_quoted_append {t t' r r' : Text} (h : quoted t ++ r = quoted t' ++ r') :
    t = t' ∧ r = r' := by
  have hread := readQuoted?_quoted_append t r
  rw [h, readQuoted?_quoted_append] at hread
  obtain ⟨rfl, rfl⟩ := Prod.mk.inj (Option.some.inj hread)
  exact ⟨rfl, rfl⟩

/-! ## Expressions -/

/-- The operators of an expression. -/
def Expr.operators : Expr → List Text
  | .missing | .number _ | .text _ => []
  | .binary op l r => op :: (l.operators ++ r.operators)

/-- The operators of a statement. -/
def Stmt.operators : Stmt → List Text
  | .missing => []
  | .expression e => e.operators

/-- The operators of a program. -/
def Program.operators (p : Program) : List Text := p.body.flatMap Stmt.operators

/-- No part is missing, and every operator is one of `+`, `-`, `*` and `/`. -/
structure Expr.IsWellFormed (e : Expr) : Prop where
  isComplete : e.isComplete
  operators : ∀ op ∈ e.operators, op ∈ sumOperators ++ productOperators

namespace Expr

/-- The operands of a well-formed expression are well-formed, and its operator is one byte. -/
lemma IsWellFormed.binary {op : Text} {l r : Expr} (h : (Expr.binary op l r).IsWellFormed) :
    (∃ b, op = [b] ∧ isOperator b) ∧ l.IsWellFormed ∧ r.IsWellFormed := by
  obtain ⟨hl, hr⟩ := Bool.and_eq_true_iff.1 h.isComplete
  have hop : ∀ o ∈ op :: (l.operators ++ r.operators), o ∈ sumOperators ++ productOperators :=
    h.operators
  simp only [List.mem_cons, List.mem_append (s := l.operators)] at hop
  refine ⟨?_, ⟨hl, fun o ho => hop o (.inr (.inl ho))⟩, ⟨hr, fun o ho => hop o (.inr (.inr ho))⟩⟩
  have hself := hop op (.inl rfl)
  simp only [sumOperators, productOperators, List.cons_append, List.nil_append, List.mem_cons,
    List.not_mem_nil, or_false] at hself
  rcases hself with rfl | rfl | rfl | rfl
  · exact ⟨0x2B, rfl, rfl⟩
  · exact ⟨0x2D, rfl, rfl⟩
  · exact ⟨0x2A, rfl, rfl⟩
  · exact ⟨0x2F, rfl, rfl⟩

/-- The bytes with which the form of a kind of expressions can begin. -/
def Opens (b : UInt8) : Expr → Prop
  | .missing => False
  | .number _ => b ≠ 0x22 ∧ b ≠ 0x28
  | .text _ => b = 0x22
  | .binary .. => b = 0x28

/-- The form of an expression begins with a byte of its kind. -/
lemma exists_canonical_eq_cons {e : Expr} (h : e.IsWellFormed) :
    ∃ b t, e.canonical = b :: t ∧ Opens b e := by
  cases e with
  | missing => cases h.isComplete
  | number v =>
    obtain ⟨negative, body, hv, hne, hbody⟩ := v.exists_plain_eq
    rw [canonical_number, hv]
    cases negative
    · obtain ⟨b, t, rfl⟩ := List.exists_cons_of_ne_nil hne
      have hb := hbody b (by simp)
      refine ⟨b, t, rfl, ?_, ?_⟩ <;> rintro rfl <;> cases hb
    · exact ⟨0x2D, body, rfl, by decide, by decide⟩
  | text v => exact ⟨0x22, _, canonical_text v, rfl⟩
  | binary op l r =>
    rw [canonical_binary]
    exact ⟨0x28, _, rfl, rfl⟩

/-- Two expressions with the same form in front are of the same kind. -/
lemma exists_opens {e e' : Expr} (he : e.IsWellFormed) (he' : e'.IsWellFormed) {r r' : Text}
    (h : e.canonical ++ r = e'.canonical ++ r') : ∃ b, Opens b e ∧ Opens b e' := by
  obtain ⟨b, t, ht, hb⟩ := exists_canonical_eq_cons he
  obtain ⟨b', t', ht', hb'⟩ := exists_canonical_eq_cons he'
  rw [ht, ht'] at h
  exact ⟨b, hb, (List.cons.inj h).1 ▸ hb'⟩

/-- The form of an operation in front of a text. -/
lemma canonical_binary_append (b : UInt8) (l r : Expr) (t : Text) :
    (binary [b] l r).canonical ++ t =
      0x28 :: (l.canonical ++ b :: (r.canonical ++ 0x29 :: t)) := by
  rw [canonical_binary]
  simp only [List.append_assoc]
  rfl

/-- A well-formed expression in front of a delimiter can be cut off in one way only. -/
lemma eq_of_canonical_append {e e' : Expr} (he : e.IsWellFormed) (he' : e'.IsWellFormed)
    {t t' : Text} (ht : IsDelimited t) (ht' : IsDelimited t')
    (h : e.canonical ++ t = e'.canonical ++ t') : e = e' ∧ t = t' := by
  induction e generalizing e' t t' with
  | missing => cases he.isComplete
  | number v =>
    obtain ⟨b, hb, hb'⟩ := exists_opens he he' h
    cases e' with
    | missing => cases hb'
    | number v' =>
      rw [canonical_number, canonical_number] at h
      obtain ⟨rfl, rfl⟩ := Binary64.eq_of_plain_append ht ht' h
      exact ⟨rfl, rfl⟩
    | text v' => exact absurd hb' hb.1
    | binary op' l' r' => exact absurd hb' hb.2
  | text v =>
    obtain ⟨b, hb, hb'⟩ := exists_opens he he' h
    obtain rfl : b = 0x22 := hb
    cases e' with
    | missing => cases hb'
    | number v' => exact absurd rfl hb'.1
    | text v' =>
      rw [canonical_text, canonical_text] at h
      obtain ⟨rfl, rfl⟩ := eq_of_quoted_append h
      exact ⟨rfl, rfl⟩
    | binary op' l' r' => cases hb'
  | binary op l r ihl ihr =>
    obtain ⟨b, hb, hb'⟩ := exists_opens he he' h
    obtain rfl : b = 0x28 := hb
    cases e' with
    | missing => cases hb'
    | number v' => exact absurd rfl hb'.2
    | text v' => cases hb'
    | binary op' l' r' =>
      obtain ⟨⟨o, rfl, ho⟩, hl, hr⟩ := he.binary
      obtain ⟨⟨o', rfl, ho'⟩, hl', hr'⟩ := he'.binary
      have hoperator {b : UInt8} (hb : isOperator b) : isDelimiter b := by simp [isDelimiter, hb]
      rw [canonical_binary_append, canonical_binary_append] at h
      -- the operator is found behind the left operand, the parenthesis behind the right one
      obtain ⟨rfl, hbehind⟩ := ihl hl hl' (isDelimited_cons (hoperator ho) _)
        (isDelimited_cons (hoperator ho') _) (List.cons.inj h).2
      obtain ⟨rfl, hright⟩ := List.cons.inj hbehind
      obtain ⟨rfl, hrest⟩ := ihr hr hr' (isDelimited_cons rfl t) (isDelimited_cons rfl t') hright
      exact ⟨rfl, (List.cons.inj hrest).2⟩

end Expr

/-! ## Programs -/

/-- Nothing is missing in a statement, and its operators are among the four. -/
def Stmt.IsWellFormed (s : Stmt) : Prop := ∃ e, s = .expression e ∧ e.IsWellFormed

/-- The forms of statements, each behind a line feed. -/
def Stmt.canonicalLines (ss : List Stmt) : Text := ss.flatMap fun s => 0x0A :: s.canonical

namespace Stmt

lemma canonicalLines_cons (e : Expr) (ss : List Stmt) :
    canonicalLines (.expression e :: ss) =
      0x0A :: (e.canonical ++ 0x3B :: canonicalLines ss) := by
  rw [canonicalLines, List.flatMap_cons, canonical, List.cons_append, List.append_assoc]
  rfl

/-- The lines of well-formed statements determine the statements. -/
lemma eq_of_canonicalLines {ss ss' : List Stmt} (h : ∀ s ∈ ss, s.IsWellFormed)
    (h' : ∀ s ∈ ss', s.IsWellFormed) (heq : canonicalLines ss = canonicalLines ss') : ss = ss' := by
  induction ss generalizing ss' with
  | nil =>
    cases ss' with
    | nil => rfl
    | cons s' ss' => cases heq
  | cons s ss ih =>
    cases ss' with
    | nil => cases heq
    | cons s' ss' =>
      obtain ⟨e, rfl, he⟩ := h s (by simp)
      obtain ⟨e', rfl, he'⟩ := h' s' (by simp)
      rw [canonicalLines_cons, canonicalLines_cons] at heq
      obtain ⟨rfl, hbehind⟩ := Expr.eq_of_canonical_append he he' (isDelimited_cons rfl _)
        (isDelimited_cons rfl _) (List.cons.inj heq).2
      rw [ih (fun s hs => h s (by simp [hs])) (fun s hs => h' s (by simp [hs]))
        (List.cons.inj hbehind).2]

/-- Statements with line feeds between them are lines without the first line feed. -/
lemma canonicalLines_eq {ss : List Stmt} (hne : ss ≠ []) :
    canonicalLines ss = 0x0A :: Text.join (utf8 "\n") (ss.map canonical) := by
  induction ss with
  | nil => exact absurd rfl hne
  | cons s ss ih =>
    rw [canonicalLines, List.flatMap_cons, ← canonicalLines]
    cases ss with
    | nil => exact congrArg (0x0A :: ·) (List.append_nil _)
    | cons s' ss' =>
      rw [ih (List.cons_ne_nil s' ss')]
      simp only [List.map_cons, Text.join, List.append_assoc]
      rfl

/-- Well-formed statements have an empty form only if there are none. -/
lemma eq_nil_of_join_canonical {ss : List Stmt} (h : ∀ s ∈ ss, s.IsWellFormed)
    (hnil : Text.join (utf8 "\n") (ss.map canonical) = []) : ss = [] := by
  by_contra hne
  have hlines := canonicalLines_eq hne
  obtain ⟨s, ss, rfl⟩ := List.exists_cons_of_ne_nil hne
  obtain ⟨e, rfl, -⟩ := h s (by simp)
  rw [hnil, canonicalLines_cons, List.cons.injEq] at hlines
  exact List.append_ne_nil_of_right_ne_nil e.canonical (List.cons_ne_nil _ _) hlines.2

end Stmt

namespace Program

/-- The statements of a complete program with the four operators are well-formed. -/
lemma isWellFormed_of_mem_body {p : Program} (hp : p.isComplete)
    (hop : ∀ op ∈ p.operators, op ∈ sumOperators ++ productOperators) {s : Stmt}
    (hs : s ∈ p.body) : s.IsWellFormed := by
  have hcomplete := List.all_eq_true.1 hp s hs
  cases s with
  | missing => cases hcomplete
  | expression e =>
    exact ⟨e, rfl, hcomplete, fun op ho => hop op (List.mem_flatMap.2 ⟨_, hs, ho⟩)⟩

end Program

/-- The parenthesised form of a complete program determines the program, down to the bytes of its
texts. -/
theorem canonical_injective {p q : Program} (hp : p.isComplete) (hq : q.isComplete)
    (hop : ∀ op ∈ p.operators ++ q.operators, op ∈ sumOperators ++ productOperators)
    (h : p.canonical = q.canonical) : p = q := by
  have hbody : ∀ s ∈ p.body, s.IsWellFormed := fun s hs =>
    p.isWellFormed_of_mem_body hp (fun op ho => hop op (List.mem_append_left _ ho)) hs
  have hbody' : ∀ s ∈ q.body, s.IsWellFormed := fun s hs =>
    q.isWellFormed_of_mem_body hq (fun op ho => hop op (List.mem_append_right _ ho)) hs
  obtain ⟨ss⟩ := p
  obtain ⟨ss'⟩ := q
  rw [Program.canonical, Program.canonical] at h
  congr 1
  rcases eq_or_ne ss [] with rfl | hne
  · exact (Stmt.eq_nil_of_join_canonical hbody' h.symm).symm
  · rcases eq_or_ne ss' [] with rfl | hne'
    · exact Stmt.eq_nil_of_join_canonical hbody h
    · refine Stmt.eq_of_canonicalLines hbody hbody' ?_
      rw [Stmt.canonicalLines_eq hne, Stmt.canonicalLines_eq hne', h]

/-- Differences of signed numbers, and a text with a stray byte, a quote and a replacement
character. -/
def signedProgram (v : Binary64) : Program :=
  ⟨[.expression (.binary (utf8 "-") (.number v)
      (.binary (utf8 "-") (.number (.infinite true)) (.number v))),
    .expression (.text (0xFF :: utf8 "\"\uFFFD"))]⟩

/-- The two programs, whose numbers are given by different numerals, have one form and are equal. -/
theorem canonical_injective_signedProgram :
    let p := signedProgram (.ofText (utf8 "-1"))
    let q := signedProgram (.ofText (utf8 "-10e-1"))
    p.isComplete ∧ q.isComplete ∧
      (∀ op ∈ p.operators ++ q.operators, op ∈ sumOperators ++ productOperators) ∧
      p.canonical = q.canonical ∧ p = q := by
  have hp : (signedProgram (.ofText (utf8 "-1"))).isComplete := rfl
  have hq : (signedProgram (.ofText (utf8 "-10e-1"))).isComplete := rfl
  have hop : ∀ op ∈ (signedProgram (.ofText (utf8 "-1"))).operators ++
      (signedProgram (.ofText (utf8 "-10e-1"))).operators,
      op ∈ sumOperators ++ productOperators := by decide
  have hnumber : Binary64.ofText (utf8 "-1") = Binary64.ofText (utf8 "-10e-1") := by
    decide +kernel
  have h : (signedProgram (.ofText (utf8 "-1"))).canonical =
      (signedProgram (.ofText (utf8 "-10e-1"))).canonical := by rw [hnumber]
  exact ⟨hp, hq, hop, h, canonical_injective hp hq hop h⟩

end ExprLang
