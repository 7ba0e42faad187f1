import ExprLang.Proofs.Grammar.Machine
import Mathlib.Data.List.Forall2

/-!
# Programs and the tokens that spell them

A program is *normal* if its operators nest by rank: `Expr.isProduct` describes literals and chains
of `*` and `/` that group to the left, and `Expr.isNormal` describes chains of `+` and `-` over
these.  The yield of a tree is the list of its symbols from left to right, and `Token.Spells` says
which tokens stand for a symbol; their locations do not matter.

The main statement is `outcome_eq_ok_iff`: a parser on a source that delivers a list of tokens
returns a program exactly if the program has a statement, is normal, and has a yield that the list
spells.  Both directions rest on the machine.  What a state has read so far is spelled by the tokens
it was fed (`spells_of_run`), and the tokens of a normal tree lead to the state that holds this tree
(`feedAll_of_isNormal`).
-/

namespace ExprLang

/-! ## Normal programs -/

/-- The operators of a product. -/
def productOperators : List Text := [utf8 "*", utf8 "/"]

/-- The operators of a sum. -/
def sumOperators : List Text := [utf8 "+", utf8 "-"]

namespace Expr

/-- Whether an expression is a number or a text. -/
def isLiteral : Expr → Bool
  | .number _ | .text _ => true
  | _ => false

/-- Whether an expression is a literal, or a product of such a product and a literal. -/
def isProduct : Expr → Bool
  | .missing => false
  | .number _ | .text _ => true
  | .binary op l r => op ∈ productOperators && l.isProduct && r.isLiteral

/-- Whether the operators of an expression nest by rank and group to the left. -/
def isNormal : Expr → Bool
  | .missing => false
  | .number _ | .text _ => true
  | .binary op l r =>
    (op ∈ productOperators && l.isProduct && r.isLiteral) ||
      (op ∈ sumOperators && l.isNormal && r.isProduct)

/-- A literal is a product. -/
lemma isProduct_of_isLiteral {e : Expr} (h : e.isLiteral) : e.isProduct := by
  cases e <;> simp_all [isLiteral, isProduct]

/-- A product is normal. -/
lemma isNormal_of_isProduct {e : Expr} (h : e.isProduct) : e.isNormal := by
  cases e <;> simp_all [isProduct, isNormal]

/-- Products are built from literals, and from a product and a literal. -/
@[elab_as_elim] lemma isProduct_induction {motive : (e : Expr) → e.isProduct → Prop}
    (literal : ∀ e (h : e.isLiteral), motive e (isProduct_of_isLiteral h))
    (product : ∀ op l r (hop : op ∈ productOperators) (hl : l.isProduct) (hr : r.isLiteral),
      motive l hl → motive (.binary op l r) (by simp [isProduct, hop, hl, hr]))
    {e : Expr} (he : e.isProduct) : motive e he := by
  induction e with
  | missing => simp [isProduct] at he
  | number v => exact literal _ rfl
  | text v => exact literal _ rfl
  | binary op l r ihl _ =>
    have h := he
    simp only [isProduct, Bool.and_eq_true, decide_eq_true_eq] at h
    exact product op l r h.1.1 h.1.2 h.2 (ihl h.1.2)

/-- Normal expressions are built from products, and from a normal expression and a product. -/
@[elab_as_elim] lemma isNormal_induction {motive : (e : Expr) → e.isNormal → Prop}
    (product : ∀ e (h : e.isProduct), motive e (isNormal_of_isProduct h))
    (sum : ∀ op l r (hop : op ∈ sumOperators) (hl : l.isNormal) (hr : r.isProduct),
      motive l hl → motive (.binary op l r) (by simp [isNormal, hop, hl, hr]))
    {e : Expr} (he : e.isNormal) : motive e he := by
  induction e with
  | missing => simp [isNormal] at he
  | number v => exact product _ rfl
  | text v => exact product _ rfl
  | binary op l r ihl _ =>
    have h := he
    simp only [isNormal, Bool.or_eq_true, Bool.and_eq_true, decide_eq_true_eq] at h
    rcases h with h | h
    · exact product _ (by simp [isProduct, h])
    · exact sum op l r h.1.1 h.1.2 h.2 (ihl h.1.2)

end Expr

/-- Whether a statement is there and its expression is normal. -/
def Stmt.isNormal : Stmt → Bool
  | .missing => false
  | .expression e => e.isNormal

/-- Whether all statements of a program are normal. -/
def Program.isNormal (p : Program) : Bool :=
  p.body.all Stmt.isNormal

/-! ## Yields -/

/-- A symbol of the grammar. -/
inductive Symbol where
  | number (value : Binary64)
  | text (value : Text)
  | operator (value : Text)
  | semicolon
  deriving DecidableEq

/-- The symbols of an expression from left to right. -/
def Expr.yield : Expr → List Symbol
  | .missing => []
  | .number v => [.number v]
  | .text v => [.text v]
  | .binary op l r => l.yield ++ .operator op :: r.yield

/-- The symbols of a statement: those of its expression, and a semicolon. -/
def Stmt.yield : Stmt → List Symbol
  | .missing => []
  | .expression e => e.yield ++ [.semicolon]

/-- The symbols of a program, one statement after another. -/
def Program.yield (p : Program) : List Symbol :=
  p.body.flatMap Stmt.yield

/-- The tokens that stand for a symbol.  The text of a number converts to its value; the text of a
string has one byte more at either end, unless it is too short to lose two. -/
def Token.Spells (t : Token) : Symbol → Prop
  | .number v => t.kind = .number ∧ Binary64.ofText t.value = v
  | .text v => t.kind = .string ∧
      ((∃ a b, t.value = a :: (v ++ [b])) ∨ (t.value.length < 2 ∧ t.value = v))
  | .operator v => t.kind = .operator ∧ t.value = v
  | .semicolon => t.kind = .semicolon

/-- The tokens of a list stand for the symbols of another, one for one and in order. -/
abbrev Spell (ts : List Token) (xs : List Symbol) : Prop :=
  List.Forall₂ Token.Spells ts xs

/-- Lists that spell two lists of symbols spell them together. -/
lemma Spell.append {ts us : List Token} {xs ys : List Symbol} (h : Spell ts xs) (h' : Spell us ys) :
    Spell (ts ++ us) (xs ++ ys) :=
  List.rel_append h h'

/-- What spells two lists of symbols together falls into what spells either. -/
lemma Spell.exists_of_append {ts : List Token} {xs ys : List Symbol} (h : Spell ts (xs ++ ys)) :
    ∃ us vs, ts = us ++ vs ∧ Spell us xs ∧ Spell vs ys :=
  ⟨ts.take xs.length, ts.drop xs.length, (List.take_append_drop _ _).symm,
    List.forall₂_take_append ts xs ys h, List.forall₂_drop_append ts xs ys h⟩

/-- Every symbol of a list is spelt by a token. -/
lemma Spell.exists_of_mem {ts : List Token} {xs : List Symbol} (h : Spell ts xs) {x : Symbol}
    (hx : x ∈ xs) : ∃ t ∈ ts, t.Spells x := by
  induction h with
  | nil => simp at hx
  | @cons t y ts xs hty _ ih =>
    rcases List.mem_cons.1 hx with rfl | hx
    · exact ⟨t, by simp, hty⟩
    · obtain ⟨t', ht', hspells⟩ := ih hx
      exact ⟨t', by simp [ht'], hspells⟩

/-! ## What single tokens stand for -/

/-- A text loses its first and its last byte if it has two. -/
lemma unquote_eq_iff {t v : Text} :
    unquote t = v ↔ (∃ a b, t = a :: (v ++ [b])) ∨ (t.length < 2 ∧ t = v) := by
  unfold unquote
  split
  · next h =>
    obtain ⟨a, u, rfl⟩ := List.exists_cons_of_length_pos (Nat.lt_of_lt_of_le Nat.two_pos h)
    have hu : u ≠ [] := by
      rintro rfl
      simp at h
    have hlen : ¬ (a :: u).length < 2 := Nat.not_lt.2 h
    constructor
    · rintro rfl
      refine .inl ⟨a, u.getLast hu, ?_⟩
      simp [List.dropLast_append_getLast]
    · rintro (⟨a', b, heq⟩ | ⟨hlt, -⟩)
      · obtain ⟨rfl, rfl⟩ := List.cons.inj heq
        simp
      · exact absurd hlt hlen
  · next h =>
    have hlt : t.length < 2 := Nat.not_le.1 h
    constructor
    · rintro rfl
      exact .inr ⟨hlt, rfl⟩
    · rintro (⟨a, b, rfl⟩ | ⟨-, rfl⟩)
      · simp only [List.length_cons, List.length_append] at hlt
        omega
      · rfl

/-- Whether a token stands for a symbol can be computed. -/
instance (t : Token) (x : Symbol) : Decidable (t.Spells x) :=
  match x with
  | .number _ => inferInstanceAs (Decidable (_ ∧ _))
  | .text _ => decidable_of_iff _ (and_congr_right fun _ => unquote_eq_iff)
  | .operator _ => inferInstanceAs (Decidable (_ ∧ _))
  | .semicolon => inferInstanceAs (Decidable (_ = _))

namespace Token

variable {t : Token}

/-- A token is read as a literal exactly if it stands for the symbol of that literal. -/
lemma literal?_eq_some_iff {e : Expr} :
    t.literal? = some e ↔ e.isLiteral ∧ Spell [t] e.yield := by
  have hstring {v : Text} : t.Spells (.text v) ↔ t.kind = .string ∧ unquote t.value = v := by
    rw [unquote_eq_iff, Spells]
  cases e with
  | missing => cases hk : t.kind <;> simp [literal?, hk, Expr.isLiteral]
  | number v => cases hk : t.kind <;> simp [literal?, hk, Expr.isLiteral, Expr.yield, Spells]
  | text v => cases hk : t.kind <;> simp [literal?, hk, Expr.isLiteral, Expr.yield, hstring]
  | binary op l r => cases hk : t.kind <;> simp [literal?, hk, Expr.isLiteral]

/-- The tokens that are read as literals are the numbers and the strings. -/
lemma literal?_eq_none_iff : t.literal? = none ↔ t.kind ∉ [Kind.number, Kind.string] := by
  cases hk : t.kind <;> simp [literal?, hk]

/-- A product is continued by `*` and `/`. -/
lemma link?_eq_product_iff :
    t.link? = some .product ↔ ∃ op ∈ productOperators, t.Spells (.operator op) := by
  cases hk : t.kind with
  | operator =>
    by_cases hp : t.value = utf8 "*" ∨ t.value = utf8 "/"
    · simp [link?, hk, hp, productOperators, Spells]
    · simp only [link?, hk, hp, if_false, productOperators, Spells]
      split <;> simp_all
  | _ => simp [link?, hk, Spells]

/-- A sum is continued by `+` and `-`. -/
lemma link?_eq_sum_iff : t.link? = some .sum ↔ ∃ op ∈ sumOperators, t.Spells (.operator op) := by
  have hdisjoint : t.value ∈ sumOperators → ¬ (t.value = utf8 "*" ∨ t.value = utf8 "/") := by
    intro hs
    rcases List.mem_pair.1 hs with hs | hs <;> rw [hs] <;> decide
  cases hk : t.kind with
  | operator =>
    by_cases hs : t.value = utf8 "+" ∨ t.value = utf8 "-"
    · have hp := hdisjoint (List.mem_pair.2 hs)
      simp [link?, hk, hs, hp, sumOperators, Spells]
    · simp only [link?, hk, hs, if_false, sumOperators, Spells]
      split <;> simp_all
  | _ => simp [link?, hk, Spells]

/-- A statement is closed by a semicolon. -/
lemma link?_eq_close_iff : t.link? = some .close ↔ t.Spells .semicolon := by
  cases hk : t.kind with
  | operator =>
    simp only [link?, hk, Spells, reduceCtorEq, iff_false]
    split
    · simp
    · split <;> simp
  | _ => simp [link?, hk, Spells]

end Token

/-! ## What a state has read -/

/-- The symbols that a waiting operator has taken up, if there is one. -/
def Pending.yield : Option Pending → List Symbol
  | none => []
  | some p => p.left.yield ++ [.operator p.operator]

/-- The symbols of the statement that is being read. -/
def Focus.yield : Focus → List Symbol
  | .operand sum product => Pending.yield sum ++ Pending.yield product
  | .link sum e => Pending.yield sum ++ e.yield

/-- The symbols that a state has read. -/
def State.yield (s : State) : List Symbol :=
  s.statements.reverse.flatMap Stmt.yield ++ s.focus.yield

/-- The right operand of a waiting operator comes behind what that has taken up. -/
@[simp] lemma Pending.yield_complete (p : Option Pending) (e : Expr) :
    (Pending.complete p e).yield = Pending.yield p ++ e.yield := by
  cases p <;> simp [Pending.complete, Pending.yield, Expr.yield]

/-- Whether an operator that waits in a product, if there is one, has a product on its left. -/
def Pending.isProduct : Option Pending → Bool
  | none => true
  | some p => p.operator ∈ productOperators && p.left.isProduct

/-- Whether an operator that waits in a sum, if there is one, has a normal expression on its
left. -/
def Pending.isSum : Option Pending → Bool
  | none => true
  | some p => p.operator ∈ sumOperators && p.left.isNormal

/-- Whether the parts of the statement that is being read are normal. -/
def Focus.isNormal : Focus → Bool
  | .operand sum product => Pending.isSum sum && Pending.isProduct product
  | .link sum e => Pending.isSum sum && e.isProduct

/-- Whether everything a state holds is normal. -/
def State.isNormal (s : State) : Bool :=
  s.statements.all Stmt.isNormal && s.focus.isNormal

/-- A product that gets its literal is a product. -/
lemma Pending.isProduct_complete {p : Option Pending} {e : Expr} (hp : Pending.isProduct p)
    (he : e.isLiteral) : (Pending.complete p e).isProduct := by
  cases p with
  | none => exact Expr.isProduct_of_isLiteral he
  | some p => simp_all [Pending.isProduct, Pending.complete, Expr.isProduct]

/-- A sum that gets its product is normal. -/
lemma Pending.isNormal_complete {p : Option Pending} {e : Expr} (hp : Pending.isSum p)
    (he : e.isProduct) : (Pending.complete p e).isNormal := by
  cases p with
  | none => exact Expr.isNormal_of_isProduct he
  | some p => simp_all [Pending.isSum, Pending.complete, Expr.isNormal]

/-- A step adds the symbol of its token to what has been read. -/
lemma Step.exists_yield_eq {s s' : State} {t : Token} (h : Step s t s') :
    ∃ x, t.Spells x ∧ s'.yield = s.yield ++ [x] := by
  cases h with
  | literal he =>
    obtain ⟨-, hspell⟩ := Token.literal?_eq_some_iff.1 he
    obtain ⟨x, xs, hx, hnil, hyield⟩ := List.forall₂_cons_left_iff.1 hspell
    obtain rfl := List.forall₂_nil_left_iff.1 hnil
    exact ⟨x, hx, by simp [State.yield, Focus.yield, hyield]⟩
  | product hl =>
    obtain ⟨op, -, hop⟩ := Token.link?_eq_product_iff.1 hl
    refine ⟨.operator op, hop, ?_⟩
    simp [State.yield, Focus.yield, Pending.yield, hop.2]
  | sum hl =>
    obtain ⟨op, -, hop⟩ := Token.link?_eq_sum_iff.1 hl
    refine ⟨.operator op, hop, ?_⟩
    simp [State.yield, Focus.yield, Pending.yield, hop.2]
  | close hl =>
    refine ⟨.semicolon, Token.link?_eq_close_iff.1 hl, ?_⟩
    simp [State.yield, Focus.yield, Pending.yield, Stmt.yield]

/-- Where an operand is due, the statements and the waiting operators have to be normal. -/
lemma State.isNormal_operand_iff {stmts : List Stmt} {sum product : Option Pending}
    {loc : Location} :
    State.isNormal ⟨stmts, .operand sum product, loc⟩ ↔
      stmts.all Stmt.isNormal ∧ Pending.isSum sum ∧ Pending.isProduct product := by
  simp [State.isNormal, Focus.isNormal]

/-- Behind a product, the statements, the waiting operator and the product have to be normal. -/
lemma State.isNormal_link_iff {stmts : List Stmt} {sum : Option Pending} {e : Expr}
    {loc : Location} :
    State.isNormal ⟨stmts, .link sum e, loc⟩ ↔
      stmts.all Stmt.isNormal ∧ Pending.isSum sum ∧ e.isProduct := by
  simp [State.isNormal, Focus.isNormal]

/-- A step keeps everything normal. -/
lemma Step.isNormal {s s' : State} {t : Token} (h : Step s t s') (hs : s.isNormal) :
    s'.isNormal := by
  cases h with
  | literal he =>
    obtain ⟨hstmts, hsum, hproduct⟩ := State.isNormal_operand_iff.1 hs
    have hlit := (Token.literal?_eq_some_iff.1 he).1
    exact State.isNormal_link_iff.2 ⟨hstmts, hsum, Pending.isProduct_complete hproduct hlit⟩
  | product hl =>
    obtain ⟨hstmts, hsum, hproduct⟩ := State.isNormal_link_iff.1 hs
    obtain ⟨op, hmem, hop⟩ := Token.link?_eq_product_iff.1 hl
    refine State.isNormal_operand_iff.2 ⟨hstmts, hsum, ?_⟩
    simp [Pending.isProduct, hop.2, hmem, hproduct]
  | sum hl =>
    obtain ⟨hstmts, hsum, hproduct⟩ := State.isNormal_link_iff.1 hs
    obtain ⟨op, hmem, hop⟩ := Token.link?_eq_sum_iff.1 hl
    have hleft := Pending.isNormal_complete hsum hproduct
    refine State.isNormal_operand_iff.2 ⟨hstmts, ?_, rfl⟩
    simp [Pending.isSum, hop.2, hmem, hleft]
  | close hl =>
    obtain ⟨hstmts, hsum, hproduct⟩ := State.isNormal_link_iff.1 hs
    have hbody := Pending.isNormal_complete hsum hproduct
    refine State.isNormal_operand_iff.2 ⟨?_, rfl, rfl⟩
    rw [List.all_cons, hstmts, Stmt.isNormal, hbody]
    rfl

/-- The tokens of a run spell what has been read, and that is normal. -/
lemma spells_of_run {ts : List Token} {s : State} (h : State.start.feedAll ts = .ok s) :
    Spell ts s.yield ∧ s.isNormal := by
  induction h using State.run_induction with
  | start => exact ⟨.nil, rfl⟩
  | step ts s t s' _ hstep ih =>
    obtain ⟨hspell, hs⟩ := ih
    obtain ⟨x, hx, hyield⟩ := hstep.exists_yield_eq
    rw [hyield]
    exact ⟨hspell.append (.cons hx .nil), hstep.isNormal hs⟩

/-! ## Where the tokens of a normal tree lead -/

/-- A literal is spelled by one token, which is read as this literal. -/
lemma exists_literal?_of_spell {e : Expr} (he : e.isLiteral) {ts : List Token}
    (hts : Spell ts e.yield) : ∃ t, ts = [t] ∧ t.literal? = some e := by
  have hlen : ts.length = 1 := by
    rw [hts.length_eq]
    cases e <;> simp_all [Expr.isLiteral, Expr.yield]
  obtain ⟨t, rfl⟩ := List.length_eq_one_iff.1 hlen
  exact ⟨t, rfl, Token.literal?_eq_some_iff.2 ⟨he, hts⟩⟩

/-- What spells two operands with an operator between them falls into the tokens of the left
operand, one of the operator and those of the right operand. -/
lemma Spell.exists_of_binary {op : Text} {l r : Expr} {ts : List Token}
    (h : Spell ts (Expr.binary op l r).yield) :
    ∃ us t vs, ts = us ++ [t] ++ vs ∧ Spell us l.yield ∧ t.Spells (.operator op) ∧
      Spell vs r.yield := by
  obtain ⟨us, ws, rfl, hus, hws⟩ := Spell.exists_of_append h
  obtain ⟨t, vs, ht, hvs, rfl⟩ := List.forall₂_cons_right_iff.1 hws
  exact ⟨us, t, vs, by simp, hus, ht, hvs⟩

/-- The tokens of a product lead to a state that holds this product. -/
lemma feedAll_of_isProduct {e : Expr} (he : e.isProduct) {ts : List Token} (hts : Spell ts e.yield)
    (stmts : List Stmt) (sum : Option Pending) (loc : Location) :
    ∃ loc', State.feedAll ⟨stmts, .operand sum none, loc⟩ ts = .ok ⟨stmts, .link sum e, loc'⟩ := by
  -- a product is read from the left: its left operand leads to the state in which it is linked
  induction he using Expr.isProduct_induction generalizing ts with
  | literal e he =>
    obtain ⟨t, rfl, ht⟩ := exists_literal?_of_spell he hts
    exact ⟨t.stop, State.feedAll_append_singleton (State.feedAll_nil _) (.literal ht)⟩
  | product op l r hop hl hr ih =>
    obtain ⟨us, t, vs, rfl, hus, ht, hvs⟩ := hts.exists_of_binary
    obtain ⟨u, rfl, hu⟩ := exists_literal?_of_spell hr hvs
    obtain ⟨loc', hleft⟩ := ih hus
    have hlink : t.link? = some .product := Token.link?_eq_product_iff.2 ⟨op, hop, ht⟩
    have hop := State.feedAll_append_singleton hleft (.product hlink)
    have hright := State.feedAll_append_singleton hop (.literal hu)
    rw [ht.2] at hright
    exact ⟨u.stop, hright⟩

/-- The tokens of a normal expression lead to a state from which a semicolon closes it. -/
lemma feedAll_of_isNormal {e : Expr} (he : e.isNormal) {ts : List Token} (hts : Spell ts e.yield)
    (stmts : List Stmt) (loc : Location) :
    ∃ sum product loc', Pending.complete sum product = e ∧
      State.feedAll ⟨stmts, .operand none none, loc⟩ ts = .ok ⟨stmts, .link sum product, loc'⟩ := by
  induction he using Expr.isNormal_induction generalizing ts with
  | product e he =>
    obtain ⟨loc', hrun⟩ := feedAll_of_isProduct he hts stmts none loc
    exact ⟨none, e, loc', rfl, hrun⟩
  | sum op l r hop hl hr ih =>
    obtain ⟨us, t, vs, rfl, hus, ht, hvs⟩ := hts.exists_of_binary
    obtain ⟨sum, product, loc₁, rfl, hleft⟩ := ih hus
    have hlink : t.link? = some .sum := Token.link?_eq_sum_iff.2 ⟨op, hop, ht⟩
    have hop := State.feedAll_append_singleton hleft (.sum hlink)
    obtain ⟨loc₂, hright⟩ := feedAll_of_isProduct hr hvs stmts
      (some ⟨Pending.complete sum product, op⟩) t.stop
    refine ⟨some ⟨Pending.complete sum product, op⟩, r, loc₂, rfl, ?_⟩
    rw [State.feedAll_append_of_ok hop, ht.2, hright]

/-- The tokens of normal statements lead to a state that holds these statements. -/
lemma feedAll_of_all_isNormal {body : List Stmt} (hbody : body.all Stmt.isNormal)
    {ts : List Token} (hts : Spell ts (body.flatMap Stmt.yield)) (stmts : List Stmt)
    (loc : Location) :
    ∃ loc', State.feedAll ⟨stmts, .operand none none, loc⟩ ts =
      .ok ⟨body.reverse ++ stmts, .operand none none, loc'⟩ := by
  induction body generalizing ts stmts loc with
  | nil =>
    obtain rfl := List.forall₂_nil_right_iff.1 hts
    exact ⟨loc, rfl⟩
  | cons stmt body ih =>
    simp only [List.all_cons, Bool.and_eq_true] at hbody
    cases stmt with
    | missing => simp [Stmt.isNormal] at hbody
    | expression e =>
      obtain ⟨us, vs, rfl, hus, hvs⟩ := Spell.exists_of_append hts
      obtain ⟨ws, zs, rfl, hws, hzs⟩ := Spell.exists_of_append hus
      obtain ⟨t, us', ht, hnil, rfl⟩ := List.forall₂_cons_right_iff.1 hzs
      obtain rfl := List.forall₂_nil_right_iff.1 hnil
      obtain ⟨sum, product, loc₁, rfl, hrun⟩ := feedAll_of_isNormal hbody.1 hws stmts loc
      have hclose : t.link? = some .close := Token.link?_eq_close_iff.2 ht
      have hrun' := State.feedAll_append_singleton hrun (.close hclose)
      obtain ⟨loc₂, hrest⟩ :=
        ih hbody.2 hvs (.expression (Pending.complete sum product) :: stmts) t.stop
      refine ⟨loc₂, ?_⟩
      rw [State.feedAll_append_of_ok hrun', hrest]
      simp

/-! ## Exactness -/

/-- A list of tokens is read as a program exactly if it spells the yield of this program and the
program is normal and not empty. -/
lemma parseTokens_eq_ok_iff {ts : List Token} {p : Program} :
    parseTokens ts = .ok p ↔ p.body ≠ [] ∧ p.isNormal ∧ Spell ts p.yield := by
  constructor
  · intro h
    cases hrun : State.start.feedAll ts with
    | error e => simp [parseTokens, hrun, bind, Except.bind] at h
    | ok s =>
      have hfinish : s.finish = .ok p := by
        rw [parseTokens, hrun] at h
        exact h
      obtain ⟨hfocus, hne, rfl⟩ := State.finish_eq_ok_iff.1 hfinish
      obtain ⟨hspell, hs⟩ := spells_of_run hrun
      simp only [State.isNormal, Bool.and_eq_true] at hs
      refine ⟨by simpa using hne, by simpa [Program.isNormal] using hs.1, ?_⟩
      simpa [Program.yield, State.yield, hfocus, Focus.yield, Pending.yield] using hspell
  · rintro ⟨hne, hnormal, hspell⟩
    obtain ⟨loc, hrun⟩ := feedAll_of_all_isNormal hnormal hspell [] .start
    have hfinish :
        parseTokens ts = State.finish ⟨p.body.reverse ++ [], .operand none none, loc⟩ := by
      rw [parseTokens, State.start, hrun]
      rfl
    rw [hfinish, State.finish_eq_ok_iff]
    simpa using hne

/-- A parser on a source that delivers a list of tokens and then has none left returns a program
exactly if the program has a statement, its operators nest by rank and group to the left, and the
list spells its yield: nothing is lost, repeated or moved. -/
theorem outcome_eq_ok_iff {σ ε : Type} [TokenSource σ ε] {src : σ} {ts : List Token}
    (h : Delivers src ts none) (p : Program) :
    Parser.outcome src = .ok p ↔ p.body ≠ [] ∧ p.isNormal ∧ Spell ts p.yield := by
  rw [Parser.outcome_eq_ok_iff_parseTokens h, parseTokens_eq_ok_iff]

/-- The tokens of a difference whose right side is a product, and of a string without quotes. -/
def mixedTokens : List Token :=
  [⟨.number, utf8 "1", ⟨1, 1⟩⟩, ⟨.operator, utf8 "-", ⟨1, 3⟩⟩, ⟨.number, utf8 "2", ⟨9, 4⟩⟩,
    ⟨.operator, utf8 "*", ⟨1, 1⟩⟩, ⟨.string, utf8 "'a'", ⟨1, 1⟩⟩, ⟨.semicolon, [], ⟨1, 1⟩⟩,
    ⟨.string, utf8 "b", ⟨2, 1⟩⟩, ⟨.semicolon, utf8 ";", ⟨2, 2⟩⟩]

/-- The program that `mixedTokens` spells. -/
def mixedProgram : Program :=
  ⟨[.expression (.binary (utf8 "-") (.number (.ofText (utf8 "1")))
      (.binary (utf8 "*") (.number (.ofText (utf8 "2"))) (.text (utf8 "a")))),
    .expression (.text (utf8 "b"))]⟩

/-- A parser groups by rank and takes hand-made tokens as they come. -/
theorem outcome_mixedTokens :
    Delivers (TokenStream.ofTokens mixedTokens) mixedTokens none ∧
      Parser.outcome (TokenStream.ofTokens mixedTokens) = .ok mixedProgram := by
  have hsource := TokenStream.delivers_ofTokens mixedTokens
  exact ⟨hsource, (outcome_eq_ok_iff hsource mixedProgram).2
    ⟨by decide, by decide, by decide +kernel⟩⟩

end ExprLang
