import ExprLang.Proofs.Lexical.Drain
import ExprLang.Proofs.Lexical.Fits
import Mathlib.Data.List.Basic

/-!
# The order of the rules

The rules are tried in the order of a table, and the first one that applies wins.  Of all orders
only one thing matters, namely whether each form of comment is tried before the operator: two
different rules apply to one text only if one of them is a comment and the other the operator, which
applies wherever a comment does (`Rule.applies_both_iff`).

Let two tables hold every rule.  If they order the comments and the operator alike
(`OrderComments`), they find the same lexeme at the front of every text
(`OrderComments.firstCut?_eq`), hence answer every call alike (`Cursor.nextWith_congr`) and read
every text alike (`tokenizeWith_congr`).  If they do not, they differ on a text that is nothing but
a comment, which is read without tokens only if the comment is tried before the operator
(`tokenizeWith_comment_iff`).

The main statement is `tokenizeWith_reordered`, which compares a reordered table with `Rule.table`.
-/

namespace ExprLang

/-! ## Which rules apply to one text -/

namespace Rule

variable {rule rule' comment : Rule} {t : Text}

/-- A rule cuts a lexeme off the front of a text. -/
def Applies (rule : Rule) (t : Text) : Prop := ∃ cut, rule.cut? t = some cut

/-- The rules of the two forms of comment. -/
def comments : List Rule := [.lineComment, .blockComment]

lemma mem_comments_iff : rule ∈ comments ↔ rule = .lineComment ∨ rule = .blockComment := by
  simp [comments]

/-- Comments make no tokens. -/
lemma kind?_of_mem_comments : ∀ comment ∈ comments, comment.kind? = none := by
  decide

lemma ne_operator_of_mem_comments : ∀ comment ∈ comments, comment ≠ .operator := by
  decide

/-- A comment begins with a slash, which is an operator. -/
lemma Applies.operator (h : comment.Applies t) (hc : comment ∈ comments) :
    Rule.operator.Applies t := by
  obtain ⟨⟨l, r⟩, hcut⟩ := h
  rcases mem_comments_iff.1 hc with rfl | rfl
  · obtain ⟨⟨⟨body, rfl, -⟩, -⟩, rfl⟩ := cutLineComment?_eq_some_iff.1 hcut
    exact ⟨_, rfl⟩
  · obtain ⟨⟨body, rfl, -⟩, rfl⟩ := cutBlockComment?_eq_some_iff.1 hcut
    exact ⟨_, rfl⟩

/-- Two different rules apply to a text exactly if one of them is a comment that does and the other
is the operator. -/
lemma applies_both_iff (hne : rule ≠ rule') :
    rule.Applies t ∧ rule'.Applies t ↔
      (rule ∈ comments ∧ rule' = .operator ∧ rule.Applies t) ∨
        (rule = .operator ∧ rule' ∈ comments ∧ rule'.Applies t) := by
  constructor
  · rintro ⟨⟨cut, h⟩, ⟨cut', h'⟩⟩
    rcases eq_or_comment_of_cut? h h' with heq | ⟨hop, hcomment⟩ | ⟨hop, hcomment⟩
    · exact absurd heq hne
    · exact .inr ⟨hop, mem_comments_iff.2 hcomment, cut', h'⟩
    · exact .inl ⟨mem_comments_iff.2 hcomment, hop, cut, h⟩
  · rintro (⟨hcomment, rfl, h⟩ | ⟨rfl, hcomment, h⟩)
    · exact ⟨h, h.operator hcomment⟩
    · exact ⟨h.operator hcomment, h⟩

/-- Besides a comment, only the operator applies where it does. -/
lemma Applies.eq_operator (hc : comment ∈ comments) (h : comment.Applies t) (h' : rule.Applies t)
    (hne : rule ≠ comment) : rule = .operator := by
  rcases (applies_both_iff hne).1 ⟨h', h⟩ with ⟨-, hop, -⟩ | ⟨hop, -, -⟩
  · exact absurd hop (ne_operator_of_mem_comments comment hc)
  · exact hop

end Rule

/-! ## What a table finds -/

section Table

variable {table table' : List Rule} {t : Text} {rule : Rule} {cut : Text × Text}

/-- No rule that applies stands before the one that a table finds. -/
lemma idxOf_le_of_firstCut? (hfirst : firstCut? table t = some (rule, cut)) {rule' : Rule}
    (h : rule'.Applies t) : table.idxOf rule ≤ table.idxOf rule' := by
  obtain ⟨cut', hcut'⟩ := h
  obtain ⟨before, found, behind, rfl, hfound, hbefore⟩ := List.findSome?_eq_some_iff.1 hfirst
  have hnot {r : Rule} {c : Text × Text} (hr : r.cut? t = some c) : r ∉ before := by
    intro hmem
    have hnone := hbefore r hmem
    rw [hr] at hnone
    cases hnone
  obtain ⟨cut₀, hcut₀, heq⟩ := Option.map_eq_some_iff.1 hfound
  obtain ⟨rfl, rfl⟩ := Prod.mk.inj heq
  rw [List.idxOf_append_of_notMem (hnot hcut₀), List.idxOf_append_of_notMem (hnot hcut'),
    List.idxOf_cons_self]
  omega

/-- The rule that a table finds stands before every other rule that applies. -/
lemma idxOf_lt_of_firstCut? (hfirst : firstCut? table t = some (rule, cut)) {rule' : Rule}
    (h : rule'.Applies t) (hne : rule ≠ rule') : table.idxOf rule < table.idxOf rule' := by
  have hmem : rule ∈ table := (cut?_of_firstCut? hfirst).1
  have hindex : table.idxOf rule ≠ table.idxOf rule' := fun heq =>
    hne ((List.idxOf_inj hmem).1 heq)
  exact lt_of_le_of_ne (idxOf_le_of_firstCut? hfirst h) hindex

/-- A table finds the rule that stands first among those that apply. -/
lemma firstCut?_eq_some_iff_idxOf_le :
    firstCut? table t = some (rule, cut) ↔
      rule ∈ table ∧ rule.cut? t = some cut ∧
        ∀ rule' : Rule, rule'.Applies t → table.idxOf rule ≤ table.idxOf rule' := by
  constructor
  · intro h
    obtain ⟨hmem, hcut⟩ := cut?_of_firstCut? h
    exact ⟨hmem, hcut, fun rule' => idxOf_le_of_firstCut? h⟩
  · rintro ⟨hmem, hcut, hle⟩
    obtain ⟨rule', cut', hfirst⟩ := exists_firstCut?_of_cut? hmem hcut
    have hcut' := (cut?_of_firstCut? hfirst).2
    have hindex : table.idxOf rule = table.idxOf rule' :=
      le_antisymm (hle rule' ⟨cut', hcut'⟩) (idxOf_le_of_firstCut? hfirst ⟨cut, hcut⟩)
    obtain rfl : rule = rule' := (List.idxOf_inj hmem).1 hindex
    rw [hfirst, Option.some.inj (hcut.symm.trans hcut')]

/-- Two tables try each form of comment and the operator in the same order. -/
def OrderComments (table table' : List Rule) : Prop :=
  ∀ comment ∈ Rule.comments,
    (table.idxOf comment < table.idxOf .operator ↔ table'.idxOf comment < table'.idxOf .operator)

/-- What one table finds, the other one finds if it orders the comments and the operator alike. -/
lemma OrderComments.firstCut?_eq_some (h : OrderComments table table')
    (hall' : ∀ rule, rule ∈ table') (hfirst : firstCut? table t = some (rule, cut)) :
    firstCut? table' t = some (rule, cut) := by
  have hcut : rule.cut? t = some cut := (cut?_of_firstCut? hfirst).2
  refine firstCut?_eq_some_iff_idxOf_le.2 ⟨hall' rule, hcut, ?_⟩
  intro rule' happlies
  by_cases hne : rule = rule'
  · rw [hne]
  have hlt : table.idxOf rule < table.idxOf rule' := idxOf_lt_of_firstCut? hfirst happlies hne
  -- the order of two rules that both apply is the order of a comment and the operator
  rcases (Rule.applies_both_iff hne).1 ⟨⟨cut, hcut⟩, happlies⟩ with
    ⟨hcomment, rfl, -⟩ | ⟨rfl, hcomment, -⟩
  · exact le_of_lt ((h rule hcomment).1 hlt)
  · exact not_lt.1 fun hlt' => absurd ((h rule' hcomment).2 hlt') (not_lt_of_gt hlt)

/-- Tables that hold every rule and order the comments and the operator alike find the same lexeme
at the front of every text. -/
lemma OrderComments.firstCut?_eq (h : OrderComments table table')
    (hall : ∀ rule, rule ∈ table) (hall' : ∀ rule, rule ∈ table') (t : Text) :
    firstCut? table t = firstCut? table' t := by
  have hsymm : OrderComments table' table := fun comment hcomment => (h comment hcomment).symm
  refine Option.ext ?_
  rintro ⟨rule, cut⟩
  exact ⟨h.firstCut?_eq_some hall', hsymm.firstCut?_eq_some hall⟩

/-! ## From one lexeme to a whole text -/

/-- Tables that find the same lexemes answer every call alike. -/
lemma Cursor.nextWith_congr (h : ∀ t, firstCut? table t = firstCut? table' t) (c : Cursor) :
    c.nextWith table = c.nextWith table' := by
  induction c using Cursor.cut_induction table with
  | stuck c hnone =>
    rw [nextWith_of_none hnone, nextWith_of_none ((h c.rest).symm.trans hnone)]
  | step c rule l r hfirst ih =>
    have hfirst' : firstCut? table' c.rest = some (rule, l, r) := (h c.rest).symm.trans hfirst
    cases hk : rule.kind? with
    | none => rw [nextWith_of_skip hfirst hk, nextWith_of_skip hfirst' hk, ih]
    | some kind => rw [nextWith_of_kind hfirst hk, nextWith_of_kind hfirst' hk]

/-- Tables that answer every call alike drain every cursor alike. -/
lemma Cursor.drainWith_congr (h : ∀ c : Cursor, c.nextWith table = c.nextWith table') (c : Cursor) :
    c.drainWith table = c.drainWith table' := by
  fun_induction Cursor.drainWith table c with
  | case1 c t hnext later ih =>
    rw [drainWith_eq table' c, ← h c, hnext, ← ih]
  | case2 c hnext => rw [drainWith_eq table' c, ← h c, hnext]
  | case3 c e hnext => rw [drainWith_eq table' c, ← h c, hnext]

/-- Tables that answer every call alike read every text alike. -/
lemma tokenizeWith_congr (h : ∀ c : Cursor, c.nextWith table = c.nextWith table') (src : Text) :
    tokenizeWith table src = tokenizeWith table' src := by
  rw [tokenizeWith, tokenizeWith, Cursor.drainWith_congr h]

/-! ## Texts that tell two orders apart -/

/-- A comment of either form can be a text of its own. -/
lemma Rule.exists_cut?_of_mem_comments {comment : Rule} (hc : comment ∈ Rule.comments) :
    ∃ t, comment.cut? t = some (t, []) := by
  rcases Rule.mem_comments_iff.1 hc with rfl | rfl
  · exact ⟨utf8 "//", rfl⟩
  · exact ⟨utf8 "/**/", rfl⟩

/-- A text that is one lexeme without a token has no tokens. -/
lemma tokenizeWith_of_skip (hfirst : firstCut? table t = some (rule, t, []))
    (hk : rule.kind? = none) : tokenizeWith table t = .ok [] := by
  have hdrain : (Cursor.ofText t).drainWith table = ([], none) := by
    rw [Cursor.drainWith_of_skip hfirst hk]
    exact Cursor.drainWith_of_none (firstCut?_nil table)
  rw [tokenizeWith, hdrain]

/-- A text that begins with a token has tokens, unless it is refused. -/
lemma tokenizeWith_ne_of_kind {l r : Text} (hfirst : firstCut? table t = some (rule, l, r))
    {kind : Kind} (hk : rule.kind? = some kind) : tokenizeWith table t ≠ .ok [] := by
  rw [tokenizeWith, Cursor.drainWith_of_kind hfirst hk]
  cases ((Cursor.ofText t).past l r).drainWith table |>.2 with
  | none => simp
  | some e => simp

/-- A text that is nothing but a comment has no tokens exactly if the comment is tried before the
operator. -/
lemma tokenizeWith_comment_iff (hall : ∀ rule, rule ∈ table) {comment : Rule}
    (hc : comment ∈ Rule.comments) (hcut : comment.cut? t = some (t, [])) :
    tokenizeWith table t = .ok [] ↔ table.idxOf comment < table.idxOf .operator := by
  have happlies : comment.Applies t := ⟨_, hcut⟩
  obtain ⟨rule, ⟨l, r⟩, hfirst⟩ := exists_firstCut?_of_cut? (hall comment) hcut
  have hrule : rule.cut? t = some (l, r) := (cut?_of_firstCut? hfirst).2
  by_cases heq : rule = comment
  · subst heq
    obtain ⟨rfl, rfl⟩ := Prod.mk.inj (Option.some.inj (hrule.symm.trans hcut))
    have hne : rule ≠ .operator := Rule.ne_operator_of_mem_comments rule hc
    exact iff_of_true (tokenizeWith_of_skip hfirst (Rule.kind?_of_mem_comments rule hc))
      (idxOf_lt_of_firstCut? hfirst (happlies.operator hc) hne)
  · obtain rfl := happlies.eq_operator hc ⟨_, hrule⟩ heq
    exact iff_of_false (tokenizeWith_ne_of_kind hfirst rfl)
      (not_lt.2 (idxOf_le_of_firstCut? hfirst happlies))

/-- Two tables that hold every rule read every text alike exactly if they order the comments and the
operator alike. -/
lemma tokenizeWith_eq_iff (hall : ∀ rule, rule ∈ table) (hall' : ∀ rule, rule ∈ table') :
    (∀ src, tokenizeWith table src = tokenizeWith table' src) ↔ OrderComments table table' := by
  constructor
  · intro h comment hc
    obtain ⟨t, hcut⟩ := Rule.exists_cut?_of_mem_comments hc
    rw [← tokenizeWith_comment_iff hall hc hcut, ← tokenizeWith_comment_iff hall' hc hcut, h t]
  · intro h
    exact tokenizeWith_congr (Cursor.nextWith_congr (h.firstCut?_eq hall hall'))

end Table

/-! ## Reordered tables -/

/-- A table orders the comments and the operator as `Rule.table` does exactly if it tries both
comments before the operator. -/
lemma orderComments_table_iff {table : List Rule} :
    OrderComments table Rule.table ↔
      ∀ comment ∈ Rule.comments, table.idxOf comment < table.idxOf .operator := by
  have htable : ∀ comment ∈ Rule.comments,
      Rule.table.idxOf comment < Rule.table.idxOf .operator := by decide
  refine forall₂_congr fun comment hc => ?_
  exact iff_true_right (htable comment hc)

/-- Let the rules be put in another order.  Every text is read as before, with the same tokens at
the same locations or with the same error, exactly if both comments are still tried before the
operator; then every call from every place gives the same answer and leaves the cursor at the same
place.  To no text do two different rules apply, except that the operator applies wherever a comment
does. -/
theorem tokenizeWith_reordered {table : List Rule} (hperm : table.Perm Rule.table) :
    ((∀ src, tokenizeWith table src = tokenize src) ↔
        ∀ comment ∈ Rule.comments, table.idxOf comment < table.idxOf .operator) ∧
      ((∀ comment ∈ Rule.comments, table.idxOf comment < table.idxOf .operator) →
        ∀ c : Cursor, c.nextWith table = c.next) ∧
      ∀ (t : Text) (rule rule' : Rule), rule ≠ rule' →
        (rule.Applies t ∧ rule'.Applies t ↔
          (rule ∈ Rule.comments ∧ rule' = .operator ∧ rule.Applies t) ∨
            (rule = .operator ∧ rule' ∈ Rule.comments ∧ rule'.Applies t)) := by
  have hall (rule : Rule) : rule ∈ table := hperm.mem_iff.2 rule.mem_table
  refine ⟨?_, ?_, fun t rule rule' hne => Rule.applies_both_iff hne⟩
  · rw [← orderComments_table_iff, ← tokenizeWith_eq_iff hall Rule.mem_table]
    rfl
  · intro h
    have horder : OrderComments table Rule.table := orderComments_table_iff.2 h
    exact Cursor.nextWith_congr (horder.firstCut?_eq hall Rule.mem_table)

/-- A table that moves every rule and still tries both comments before the operator. -/
def shuffledTable : List Rule :=
  [.string, .semicolon, .blockComment, .lineComment, .operator, .number, .blanks]

/-- A table that tries the operator before one of the two comments. -/
def hastyTable : List Rule :=
  [.lineComment, .operator, .blockComment, .blanks, .number, .string, .semicolon]

/-- The shuffled table reads every text as before, and the hasty one does not.  To a text that
begins with a block comment, the rule for block comments and the operator both apply. -/
theorem tokenizeWith_shuffledTable :
    shuffledTable.Perm Rule.table ∧ (∀ src, tokenizeWith shuffledTable src = tokenize src) ∧
      hastyTable.Perm Rule.table ∧ (∃ src, tokenizeWith hastyTable src ≠ tokenize src) ∧
      Rule.blockComment.Applies (utf8 "/*/**/") ∧ Rule.operator.Applies (utf8 "/*/**/") := by
  have hshuffled : shuffledTable.Perm Rule.table := by decide
  have hhasty : hastyTable.Perm Rule.table := by decide
  obtain ⟨hreads, -, hboth⟩ := tokenizeWith_reordered hshuffled
  obtain ⟨hreads', -, -⟩ := tokenizeWith_reordered hhasty
  have hcomment : Rule.blockComment.Applies (utf8 "/*/**/") := ⟨_, rfl⟩
  refine ⟨hshuffled, hreads.2 (by decide), hhasty, ?_, ?_⟩
  · exact not_forall.1 fun h => absurd (hreads'.1 h) (by decide)
  · exact (hboth _ .blockComment .operator (by decide)).2 (.inl ⟨by decide, rfl, hcomment⟩)

end ExprLang
