import ExprLang.Proofs.Lexical.Alignment
import Mathlib.Order.Monotone.Basic

/-!
# Progress of a cursor

A rule that applies cuts a text at its *width*, which is at least one and at most the length of the
text (`Rule.cutsAt_width`).  So a cursor that goes on by lexemes always stands at an offset of its
text, and never goes back (`Cursor.Reaches.suffix`).  A call that hands out a token moves the cursor
past all of it (`Cursor.offset_next_of_token`), and a call that hands out none leaves it at a place
where every further call gives the same answer (`Cursor.next_next`).

The main statement is `progress_of_calls`: it carries these steps over to any number of calls and
compares what they answer with the tokens of the text.
-/

namespace ExprLang

/-! ## The width of a rule -/

/-- How many bytes a rule takes off the front of a text, zero if it does not apply. -/
def Rule.width (rule : Rule) (t : Text) : ℕ := ((rule.cut? t).map (·.1.length)).getD 0

/-- A rule takes `n` bytes off the front of a text that has as many, or does not apply to it and `n`
is zero. -/
def Rule.CutsAt (rule : Rule) (t : Text) (n : ℕ) : Prop :=
  n ≤ t.length ∧ rule.cut? t = if n = 0 then none else some (t.take n, t.drop n)

/-- Every rule cuts every text at its width. -/
lemma Rule.cutsAt_width (rule : Rule) (t : Text) : rule.CutsAt t (rule.width t) := by
  cases hcut : rule.cut? t with
  | none => simp [CutsAt, width, hcut]
  | some cut =>
    obtain ⟨l, r⟩ := cut
    have happend : l ++ r = t := append_of_cut? hcut
    have hwidth : rule.width t = l.length := by simp [width, hcut]
    have hne : l.length ≠ 0 := by simpa using ne_nil_of_cut? hcut
    rw [CutsAt, hwidth, if_neg hne, hcut, ← happend]
    simp

namespace Cursor

variable {c c' : Cursor} {src : Text}

/-! ## Places of a cursor -/

/-- How many bytes of a text are behind a cursor. -/
def offset (src : Text) (c : Cursor) : ℕ := src.length - c.rest.length

/-- A cursor leaves a suffix of what it had to read. -/
lemma Reaches.suffix (h : c.Reaches c') : c'.rest <:+ c.rest := by
  induction h with
  | refl c => exact List.suffix_rfl
  | @cut c c' rule l r hfirst _ ih =>
    have hrest : l ++ r = c.rest := Rule.append_of_cut? (cut?_of_firstCut? hfirst).2
    have hpast : (c.past l r).rest <:+ c.rest := ⟨l, hrest⟩
    exact ih.trans hpast

/-- What a cursor has to read is the text behind its offset. -/
lemma Reaches.rest_eq (h : (ofText src).Reaches c) :
    c.offset src ≤ src.length ∧ c.rest = src.drop (c.offset src) := by
  have hsuffix : c.rest <:+ src := h.suffix
  exact ⟨Nat.sub_le .., List.suffix_iff_eq_drop.1 hsuffix⟩

/-- A cursor never goes back. -/
lemma Reaches.offset_le (h : c.Reaches c') (src : Text) : c.offset src ≤ c'.offset src :=
  Nat.sub_le_sub_left h.suffix.length_le _

/-- Call after call, a cursor never goes back. -/
lemma monotone_offset_afterCalls (c : Cursor) (src : Text) :
    Monotone fun n => (c.afterCalls n).offset src := by
  refine monotone_nat_of_le_succ fun n => ?_
  rw [afterCalls_succ]
  exact (reaches_next _).offset_le src

/-- A call that hands out a token moves the cursor past the whole token. -/
lemma offset_next_of_token (hc : (ofText src).Reaches c) {t : Token}
    (ht : c.next.1 = .ok (some t)) :
    1 ≤ t.value.length ∧ c.offset src + t.value.length ≤ c.next.2.offset src := by
  obtain ⟨c₀, hreach, ⟨rule, kind, l, r, hfirst, -, hnext⟩ | ⟨-, hnext⟩⟩ := c.next_cases
  · rw [hnext] at ht ⊢
    obtain rfl : (⟨kind, l, c₀.loc⟩ : Token) = t := by simpa using ht
    have hcut := (cut?_of_firstCut? hfirst).2
    have hrest : l.length + r.length = c₀.rest.length := by
      rw [← Rule.append_of_cut? hcut, List.length_append]
    have hle := hreach.suffix.length_le
    have hsrc : c.rest.length ≤ src.length := hc.suffix.length_le
    refine ⟨List.length_pos_iff.2 (Rule.ne_nil_of_cut? hcut), ?_⟩
    change src.length - c.rest.length + l.length ≤ src.length - r.length
    omega
  · rw [hnext] at ht
    split at ht <;> simp at ht

/-! ## Calls that hand out no token -/

/-- After a call that hands out no token, a further call changes nothing and answers the same. -/
lemma next_next (h : ∀ t, c.next.1 ≠ .ok (some t)) : c.next.2.next = c.next := by
  obtain ⟨c₀, -, ⟨rule, kind, l, r, -, -, hnext⟩ | ⟨hnone, hnext⟩⟩ := c.next_cases
  · exact absurd (by rw [hnext]) (h ⟨kind, l, c₀.loc⟩)
  · rw [hnext]
    exact nextWith_of_none hnone

/-- After a call that hands out no token, no further call changes anything. -/
lemma settled {n : ℕ} (h : ∀ t, c.answer n ≠ .ok (some t)) (k : ℕ) :
    (c.afterCalls (n + k)).next = (c.afterCalls n).next := by
  induction k with
  | zero => rfl
  | succ k ih =>
    have hlater : ∀ t, (c.afterCalls (n + k)).next.1 ≠ .ok (some t) := by
      rw [ih]
      exact h
    rw [← Nat.add_assoc, afterCalls_succ, next_next hlater, ih]

/-! ## The tokens of the calls -/

/-- The token that an answer hands out, if it does. -/
def handed? : Except LexicalError (Option Token) → Option Token
  | .ok t? => t?
  | .error _ => none

/-- The tokens that the first `n` calls hand out. -/
def handedOut (c : Cursor) (n : ℕ) : List Token :=
  (List.range n).filterMap fun k => handed? (c.answer k)

/-- One more call hands out at most one more token. -/
lemma handedOut_succ (c : Cursor) (n : ℕ) :
    c.handedOut (n + 1) = c.handedOut n ++ (handed? (c.answer n)).toList := by
  rw [handedOut, List.range_succ, List.filterMap_append, handedOut]
  cases h : handed? (c.answer n) <;> simp [h]

/-- The tokens that have been handed out are behind the cursor, each with a byte of its own. -/
lemma length_handedOut_le (src : Text) (n : ℕ) :
    ((ofText src).handedOut n).length ≤ ((ofText src).afterCalls n).offset src := by
  have hreach := reaches_afterCalls (ofText src)
  induction n with
  | zero => exact Nat.zero_le _
  | succ n ih =>
    rw [handedOut_succ, afterCalls_succ, List.length_append]
    cases ht : handed? ((ofText src).answer n) with
    | none =>
      have hle := (reaches_next ((ofText src).afterCalls n)).offset_le src
      exact ih.trans hle
    | some t =>
      have hanswer : ((ofText src).afterCalls n).next.1 = .ok (some t) := by
        unfold handed? answer at ht
        split at ht
        · next heq => rw [heq, ht]
        · cases ht
      obtain ⟨hpos, hle⟩ := offset_next_of_token (hreach n) hanswer
      simp only [Option.toList_some, List.length_singleton]
      omega

/-- A cursor that has nothing left to drain answers with the end of the text or the error. -/
lemma next_of_drain_eq_nil (h : c.drain.1 = []) :
    (c.next.1 = .ok none ∧ c.drain.2 = none) ∨ ∃ e, c.next.1 = .error e ∧ c.drain.2 = some e := by
  have hdrain : c.drain = _ := drainWith_eq Rule.table c
  rw [hdrain] at h ⊢
  unfold next
  match hanswer : (c.nextWith Rule.table).1 with
  | .error e => exact .inr ⟨e, rfl, rfl⟩
  | .ok none => exact .inl ⟨rfl, rfl⟩
  | .ok (some t) => simp [hanswer] at h

end Cursor

/-- Over any number of calls, a cursor on a text

* cuts off by each rule no more bytes than there are,
* stands at an offset of the text wherever it comes to, also between the lexemes of one call, and
  never goes back,
* goes on by at least the length of each token that it hands out, which is at least one, and so
  hands out no more tokens than the text has bytes,
* repeats an answer that is not a token forever and stays where it is, and
* answers with the tokens of the text, one by one, and then with the end of the text or the
  error. -/
theorem progress_of_calls (src : Text) :
    (∀ (rule : Rule) (t : Text), rule.CutsAt t (rule.width t)) ∧
    (∀ c, (Cursor.ofText src).Reaches c →
      (c.offset src ≤ src.length ∧ c.rest = src.drop (c.offset src)) ∧
        ∀ c', c.Reaches c' → c.offset src ≤ c'.offset src) ∧
    (∀ n m, n ≤ m → (Cursor.ofText src).Reaches ((Cursor.ofText src).afterCalls n) ∧
      ((Cursor.ofText src).afterCalls n).offset src ≤
        ((Cursor.ofText src).afterCalls m).offset src) ∧
    (∀ n t, (Cursor.ofText src).answer n = .ok (some t) →
      1 ≤ t.value.length ∧
        ((Cursor.ofText src).afterCalls n).offset src + t.value.length ≤
          ((Cursor.ofText src).afterCalls (n + 1)).offset src) ∧
    (∀ n, ((Cursor.ofText src).handedOut n).length ≤ src.length) ∧
    (∀ n, (∀ t, (Cursor.ofText src).answer n ≠ .ok (some t)) → ∀ m, n ≤ m →
      (Cursor.ofText src).answer m = (Cursor.ofText src).answer n ∧
        (Cursor.ofText src).afterCalls (m + 1) = (Cursor.ofText src).afterCalls (n + 1)) ∧
    ∃ ts : List Token,
      (∀ n t, ts[n]? = some t → (Cursor.ofText src).answer n = .ok (some t)) ∧
        (((Cursor.ofText src).answer ts.length = .ok none ∧ tokenize src = .ok ts) ∨
          ∃ e, (Cursor.ofText src).answer ts.length = .error e ∧ tokenize src = .error e) := by
  have hreach := Cursor.reaches_afterCalls (Cursor.ofText src)
  refine ⟨Rule.cutsAt_width, fun c hc => ⟨hc.rest_eq, fun c' hc' => hc'.offset_le src⟩,
    fun n m hm => ⟨hreach n, Cursor.monotone_offset_afterCalls _ src hm⟩, fun n t ht => ?_,
    fun n => ?_, fun n hn m hm => ?_, (Cursor.ofText src).drain.1,
    fun n t ht => Cursor.answer_of_getElem?_drain ht, ?_⟩
  · rw [Cursor.afterCalls_succ]
    exact Cursor.offset_next_of_token (hreach n) ht
  · exact (Cursor.length_handedOut_le src n).trans (hreach n).rest_eq.1
  · obtain ⟨k, rfl⟩ := Nat.exists_eq_add_of_le hm
    have hsettled := Cursor.settled hn k
    rw [Cursor.afterCalls_succ, Cursor.afterCalls_succ, hsettled]
    exact ⟨congrArg Prod.fst hsettled, rfl⟩
  · have hdrain := Cursor.drain_afterCalls (c := Cursor.ofText src) le_rfl
    have hnil : ((Cursor.ofText src).afterCalls (Cursor.ofText src).drain.1.length).drain.1 = [] := by
      rw [hdrain, List.drop_length]
    rcases Cursor.next_of_drain_eq_nil hnil with ⟨hanswer, hend⟩ | ⟨e, hanswer, hend⟩
    · rw [hdrain] at hend
      exact .inl ⟨hanswer, tokenize_eq_ok_iff.2 (Prod.ext rfl hend)⟩
    · rw [hdrain] at hend
      exact .inr ⟨e, hanswer, tokenize_eq_error_iff.2 ⟨_, Prod.ext rfl hend⟩⟩

/-- A number, a comment over the rest of its line, a blank that has two bytes, and a quote that is
never closed. -/
def unclosedText : Text :=
  [0x31, 0x32, 0x2F, 0x2F, 0x27, 0x0A, 0xC2, 0xA0, 0x27, 0x3B]

/-- The number moves the cursor by its two bytes.  The next call skips six bytes and then fails, and
so does every later one, with the same error and in the same place. -/
theorem progress_of_unclosedText :
    (Cursor.ofText unclosedText).answer 0 = .ok (some ⟨.number, utf8 "12", ⟨1, 1⟩⟩) ∧
      2 ≤ ((Cursor.ofText unclosedText).afterCalls 1).offset unclosedText ∧
      ((Cursor.ofText unclosedText).afterCalls 2).offset unclosedText = 8 ∧
      (∀ m, 1 ≤ m → (Cursor.ofText unclosedText).answer m = .error ⟨⟨2, 2⟩, utf8 "';"⟩ ∧
        (Cursor.ofText unclosedText).afterCalls (m + 1) = ⟨utf8 "';", ⟨2, 2⟩⟩) ∧
      tokenize unclosedText = .error ⟨⟨2, 2⟩, utf8 "';"⟩ := by
  have hnumber : (Cursor.ofText unclosedText).answer 0 =
      .ok (some ⟨.number, utf8 "12", ⟨1, 1⟩⟩) := by decide +kernel
  have herror : (Cursor.ofText unclosedText).answer 1 = .error ⟨⟨2, 2⟩, utf8 "';"⟩ := by
    decide +kernel
  have hplace : (Cursor.ofText unclosedText).afterCalls 2 = ⟨utf8 "';", ⟨2, 2⟩⟩ := by
    decide +kernel
  obtain ⟨-, -, -, htoken, -, hsettled, -⟩ := progress_of_calls unclosedText
  have hoffset := (htoken 0 _ hnumber).2
  refine ⟨hnumber, (Nat.le_add_left 2 _).trans hoffset, by rw [hplace]; rfl, ?_, by decide +kernel⟩
  intro m hm
  obtain ⟨hanswer, hafter⟩ := hsettled 1 (by simp [herror]) m hm
  exact ⟨hanswer.trans herror, hafter.trans hplace⟩

end ExprLang
