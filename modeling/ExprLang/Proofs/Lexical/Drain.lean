import ExprLang.Lexical.Cursor
import Mathlib.Tactic.Lemma

/-!
# Draining a cursor, lexeme by lexeme

A cursor skips comments and blanks inside one call and the drain makes call after call.  Here both
loops are taken apart into steps of one lexeme each: `drainWith_of_kind` and `drainWith_of_skip` say
what a lexeme adds to the drain, `drainWith_of_none` says how the drain ends, and `cut_induction`
proves a fact about all cursors from these steps.  Nothing depends on the order of the rules, so the
table is arbitrary.
-/

namespace ExprLang

/-- No rule applies at the end of a text. -/
lemma firstCut?_nil (table : List Rule) : firstCut? table [] = none := by
  refine Option.eq_none_iff_forall_ne_some.2 ?_
  rintro ⟨rule, l, r⟩ h
  exact absurd (Rule.length_lt_of_cut? (cut?_of_firstCut? h).2) (Nat.not_lt_zero _)

namespace Cursor

variable {table : List Rule} {c : Cursor} {rule : Rule} {l r : Text}

/-- The cursor behind a lexeme. -/
def past (c : Cursor) (l r : Text) : Cursor := ⟨r, c.loc.after l⟩

/-- A fact holds of every cursor if it holds where no rule applies and goes back over a lexeme. -/
@[elab_as_elim] lemma cut_induction (table : List Rule) {motive : Cursor → Prop}
    (stuck : ∀ c, firstCut? table c.rest = none → motive c)
    (step : ∀ c rule l r, firstCut? table c.rest = some (rule, l, r) →
      motive (c.past l r) → motive c)
    (c : Cursor) : motive c := by
  induction hn : c.rest.length using Nat.strongRecOn generalizing c with
  | ind n ih =>
    cases hcut : firstCut? table c.rest with
    | none => exact stuck c hcut
    | some cut =>
      obtain ⟨rule, l, r⟩ := cut
      have hlt : r.length < c.rest.length := Rule.length_lt_of_cut? (cut?_of_firstCut? hcut).2
      exact step c rule l r hcut (ih r.length (hn ▸ hlt) (c.past l r) rfl)

/-! ## One call -/

/-- A call cuts one lexeme off, and goes on behind it unless it is a token. -/
lemma nextWith_eq (table : List Rule) (c : Cursor) :
    c.nextWith table =
      match firstCut? table c.rest with
      | some (rule, l, r) =>
        match rule.kind? with
        | some kind => (.ok (some ⟨kind, l, c.loc⟩), c.past l r)
        | none => (c.past l r).nextWith table
      | none => (if c.rest = [] then .ok none else .error ⟨c.loc, c.rest⟩, c) := by
  rw [nextWith]
  split
  · next h =>
    rw [h]
    rfl
  · next h => rw [h]

/-- A lexeme that is a token is handed out. -/
lemma nextWith_of_kind (h : firstCut? table c.rest = some (rule, l, r)) {kind : Kind}
    (hk : rule.kind? = some kind) :
    c.nextWith table = (.ok (some ⟨kind, l, c.loc⟩), c.past l r) := by
  simp only [nextWith_eq table c, h, hk]

/-- A lexeme that is not a token is skipped. -/
lemma nextWith_of_skip (h : firstCut? table c.rest = some (rule, l, r)) (hk : rule.kind? = none) :
    c.nextWith table = (c.past l r).nextWith table := by
  rw [nextWith_eq table c, h]
  simp only [hk]

/-- Where no rule applies, a cursor stays; it fails unless the text has ended. -/
lemma nextWith_of_none (h : firstCut? table c.rest = none) :
    c.nextWith table = (if c.rest = [] then .ok none else .error ⟨c.loc, c.rest⟩, c) := by
  simp only [nextWith_eq table c, h]

/-! ## The drain -/

/-- The drain is one call and the drain from there on. -/
lemma drainWith_eq (table : List Rule) (c : Cursor) :
    c.drainWith table =
      match (c.nextWith table).1 with
      | .ok (some t) =>
        (t :: ((c.nextWith table).2.drainWith table).1, ((c.nextWith table).2.drainWith table).2)
      | .ok none => ([], none)
      | .error e => ([], some e) := by
  rw [drainWith]
  split <;> simp_all

/-- A lexeme that is a token comes first in the drain. -/
lemma drainWith_of_kind (h : firstCut? table c.rest = some (rule, l, r)) {kind : Kind}
    (hk : rule.kind? = some kind) :
    c.drainWith table =
      (⟨kind, l, c.loc⟩ :: ((c.past l r).drainWith table).1, ((c.past l r).drainWith table).2) := by
  rw [drainWith_eq, nextWith_of_kind h hk]

/-- A lexeme that is not a token leaves no trace in the drain. -/
lemma drainWith_of_skip (h : firstCut? table c.rest = some (rule, l, r)) (hk : rule.kind? = none) :
    c.drainWith table = (c.past l r).drainWith table := by
  rw [drainWith_eq, nextWith_of_skip h hk, ← drainWith_eq]

/-- The drain ends where no rule applies. -/
lemma drainWith_of_none (h : firstCut? table c.rest = none) :
    c.drainWith table = ([], if c.rest = [] then none else some ⟨c.loc, c.rest⟩) := by
  rw [drainWith_eq, nextWith_of_none h]
  by_cases hrest : c.rest = [] <;> simp [hrest]

end Cursor

/-! ## Whole texts -/

/-- A text has tokens if its drain ends without an error. -/
lemma tokenize_eq_ok_iff {src : Text} {ts : List Token} :
    tokenize src = .ok ts ↔ (Cursor.ofText src).drain = (ts, none) := by
  rw [tokenize, tokenizeWith, Cursor.drain]
  split <;> simp_all

/-- A text has no tokens if its drain ends in an error. -/
lemma tokenize_eq_error_iff {src : Text} {e : LexicalError} :
    tokenize src = .error e ↔ ∃ ts, (Cursor.ofText src).drain = (ts, some e) := by
  rw [tokenize, tokenizeWith, Cursor.drain]
  split <;> simp_all

end ExprLang
