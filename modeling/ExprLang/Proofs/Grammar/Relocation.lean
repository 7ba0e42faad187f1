import ExprLang.Proofs.Grammar.Machine
import Mathlib.Data.List.Forall2

/-!
# Runs over tokens that stand elsewhere

The machine looks at the kinds and the texts of tokens and only copies their locations.  So two runs
over lists that differ in nothing but locations go through the same states up to locations, also if
the second one has already finished some statements of its own.

`R` is any relation between the locations of the first run and those of the second: "anywhere at
all" for texts in which the tokens are spread differently, "so many lines further down" for a text
behind another one.  `Token.Moved`, `State.Moved` and `GrammarError.Moved` carry it over to tokens,
states and errors.  One step keeps the relation (`State.agree_feed`), hence a run does
(`State.agree_feedAll`), and so does the end of the input (`State.agree_finish`).
-/

namespace ExprLang

/-- Two results agree: both are values in one relation, or both are errors in another. -/
inductive Agree {α β ε δ : Type} (R : α → β → Prop) (E : ε → δ → Prop) :
    Except ε α → Except δ β → Prop
  | ok {a : α} {b : β} (h : R a b) : Agree R E (.ok a) (.ok b)
  | error {e : ε} {f : δ} (h : E e f) : Agree R E (.error e) (.error f)

/-- What agrees still agrees after steps that keep the relation between the values. -/
lemma Agree.bind {α β α' β' ε δ : Type} {R : α → β → Prop} {R' : α' → β' → Prop}
    {E : ε → δ → Prop} {x : Except ε α} {y : Except δ β} {f : α → Except ε α'}
    {g : β → Except δ β'} (h : Agree R E x y) (hfg : ∀ a b, R a b → Agree R' E (f a) (g b)) :
    Agree R' E (x >>= f) (y >>= g) := by
  cases h with
  | ok hab => exact hfg _ _ hab
  | error he => exact .error he

/-- What agrees with a value is a value. -/
lemma Agree.exists_ok {α β ε δ : Type} {R : α → β → Prop} {E : ε → δ → Prop} {a : α}
    {y : Except δ β} (h : Agree R E (.ok a) y) : ∃ b, y = .ok b ∧ R a b := by
  cases h with
  | ok hab => exact ⟨_, rfl, hab⟩

/-- What agrees with an error is an error. -/
lemma Agree.exists_error {α β ε δ : Type} {R : α → β → Prop} {E : ε → δ → Prop} {e : ε}
    {y : Except δ β} (h : Agree R E (.error e) y) : ∃ f, y = .error f ∧ E e f := by
  cases h with
  | error he => exact ⟨_, rfl, he⟩

section Moved

variable (R : Location → Location → Prop)

/-- Two tokens of one kind and text, with the locations of their ends in relation. -/
structure Token.Moved (t t' : Token) : Prop where
  kind : t'.kind = t.kind
  value : t'.value = t.value
  loc : R t.loc t'.loc
  stop : R t.stop t'.stop

/-- Two states that are about to read the same, the second behind some earlier statements. -/
structure State.Moved (earlier : List Stmt) (s s' : State) : Prop where
  /-- The finished statements of the first, and before them those that only the second has read. -/
  statements : s'.statements = s.statements ++ earlier
  focus : s'.focus = s.focus
  stop : R s.stop s'.stop

/-- Two grammar errors that differ in locations only. -/
structure GrammarError.Moved (e e' : GrammarError) : Prop where
  cause : e'.cause = e.cause
  loc : R e.loc e'.loc
  expected : e'.expected = e.expected
  found : Option.Rel (Token.Moved R) e.found e'.found

end Moved

variable {R : Location → Location → Prop} {earlier : List Stmt} {s s' : State} {t t' : Token}

/-- A token stands for the same literal wherever it is. -/
lemma Token.Moved.literal?_eq (h : t.Moved R t') : t'.literal? = t.literal? := by
  rw [Token.literal?, Token.literal?, h.kind, h.value]

/-- A token continues or closes an expression wherever it is. -/
lemma Token.Moved.link?_eq (h : t.Moved R t') : t'.link? = t.link? := by
  rw [Token.link?, Token.link?, h.kind, h.value]

/-- What has been found is of the same kind and text in both errors. -/
lemma GrammarError.Moved.map_found {e e' : GrammarError} (h : e.Moved R e') :
    e'.found.map (fun t => (t.kind, t.value)) = e.found.map fun t => (t.kind, t.value) := by
  obtain ⟨cause, loc, expected, found⟩ := e
  obtain ⟨cause', loc', expected', found'⟩ := e'
  have hfound : Option.Rel (Token.Moved R) found found' := h.found
  cases hfound with
  | none => rfl
  | some ht => simp [ht.kind, ht.value]

/-- One token leads two states that are about to read the same to two such states, or is refused in
both.  Where the tokens before it have ended does not matter. -/
lemma State.agree_feed (hstatements : s'.statements = s.statements ++ earlier)
    (hfocus : s'.focus = s.focus) (ht : t.Moved R t') :
    Agree (State.Moved R earlier) (GrammarError.Moved R) (s.feed t) (s'.feed t') := by
  unfold State.feed
  rw [hfocus, ht.literal?_eq, ht.link?_eq, hstatements]
  cases s.focus with
  | operand sum product =>
    cases t.literal? with
    | none => exact .error ⟨rfl, ht.loc, rfl, .some ht⟩
    | some e => exact .ok ⟨rfl, rfl, ht.stop⟩
  | link sum product =>
    cases t.link? with
    | none => exact .error ⟨rfl, ht.loc, rfl, .some ht⟩
    | some l =>
      cases l with
      | product => exact .ok ⟨rfl, by simp [ht.value], ht.stop⟩
      | sum => exact .ok ⟨rfl, by simp [ht.value], ht.stop⟩
      | close => exact .ok ⟨rfl, rfl, ht.stop⟩

/-- Two runs over moved tokens end in states that are about to read the same, or are refused the
same token.  If there is a token, the first one puts the ends into relation. -/
lemma State.agree_feedAll {ts ts' : List Token} (hts : List.Forall₂ (Token.Moved R) ts ts')
    (hstatements : s'.statements = s.statements ++ earlier) (hfocus : s'.focus = s.focus)
    (hstop : ts = [] → R s.stop s'.stop) :
    Agree (State.Moved R earlier) (GrammarError.Moved R) (s.feedAll ts) (s'.feedAll ts') := by
  induction hts generalizing s s' with
  | nil => exact .ok ⟨hstatements, hfocus, hstop rfl⟩
  | cons ht _ ih =>
    rw [State.feedAll_cons, State.feedAll_cons]
    refine (State.agree_feed hstatements hfocus ht).bind ?_
    intro s₁ s₁' h
    exact ih h.statements h.focus fun _ => h.stop

/-- Two states that are about to read the same end alike, unless only the second one has read a
statement. -/
lemma State.agree_finish (h : State.Moved R earlier s s')
    (hread : s.focus = .operand none none → s.statements = [] → earlier = []) :
    Agree (fun p p' => p'.body = earlier.reverse ++ p.body) (GrammarError.Moved R) s.finish
      s'.finish := by
  obtain ⟨stmts, focus, stop⟩ := s
  obtain ⟨stmts', focus', stop'⟩ := s'
  obtain ⟨hstatements, hfocus, hstop⟩ := h
  simp only at hstatements hfocus hstop hread
  subst hstatements hfocus
  cases focus' with
  | link sum product => exact .error ⟨rfl, hstop, rfl, .none⟩
  | operand sum product =>
    cases sum with
    | some p => exact .error ⟨rfl, hstop, rfl, .none⟩
    | none =>
      cases product with
      | some p => exact .error ⟨rfl, hstop, rfl, .none⟩
      | none =>
        cases stmts with
        | cons stmt stmts => exact .ok (by simp)
        | nil =>
          obtain rfl : earlier = [] := hread rfl rfl
          exact .error ⟨rfl, hstop, rfl, .none⟩

end ExprLang
