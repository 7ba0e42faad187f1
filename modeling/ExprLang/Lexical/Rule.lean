import ExprLang.Text.Ascii
import ExprLang.Text.Blank
import ExprLang.Text.Piece
import ExprLang.Token

/-!
# Lexical rules

Seven rules say what may stand at the front of a source text: two forms of comment, a run of blanks,
a number, a quoted string, a semicolon and an operator.  `Rule.cut?` cuts the lexeme of a rule off
the front of a text, `Rule.kind?` tells which lexemes are tokens and which are skipped, and
`Rule.table` lists the rules in the order in which they are tried.

What is cut off is never empty, and nothing is lost: `Rule.append_of_cut?`, `Rule.ne_nil_of_cut?`.
-/

namespace ExprLang

/-! ### What each rule cuts off

Each function cuts a text into the lexeme at its front and the rest, if its rule applies there. -/

/-- Two slashes and the rest of the line, without the end of the line. -/
def cutLineComment? : Text → Option (Text × Text)
  | 0x2F :: 0x2F :: r =>
    some (0x2F :: 0x2F :: r.takeWhile (!isLineEnd ·), r.dropWhile (!isLineEnd ·))
  | _ => none

/-- Everything through the first `*/`. -/
def cutClosing? : Text → Option (Text × Text)
  | 0x2A :: 0x2F :: r => some ([0x2A, 0x2F], r)
  | b :: r => (cutClosing? r).map fun cut => (b :: cut.1, cut.2)
  | [] => none

/-- A slash and a star, and everything through the first `*/` behind them. -/
def cutBlockComment? : Text → Option (Text × Text)
  | 0x2F :: 0x2A :: r => (cutClosing? r).map fun cut => (0x2F :: 0x2A :: cut.1, cut.2)
  | _ => none

/-- The longest run of blank characters, which may be empty. -/
def spanBlanks (t : Text) : Text × Text :=
  match _h : firstChar? t with
  | some c =>
    if isBlank c then
      let cut := spanBlanks (t.drop c.utf8Size)
      (String.utf8EncodeChar c ++ cut.1, cut.2)
    else ([], t)
  | none => ([], t)
  termination_by t.length
  decreasing_by
    obtain ⟨r, rfl⟩ := firstChar?_eq_some_iff.1 _h
    have := Char.utf8Size_pos c
    simp [String.length_utf8EncodeChar]
    omega

/-- The longest run of blank characters. -/
def cutBlanks? (t : Text) : Option (Text × Text) :=
  if (spanBlanks t).1 = [] then none else some (spanBlanks t)

/-- The longest run of digits. -/
def cutNumber? (t : Text) : Option (Text × Text) :=
  if t.takeWhile isDigit = [] then none else some (t.takeWhile isDigit, t.dropWhile isDigit)

/-- A quote and everything through the next quote of the same kind. -/
def cutString? : Text → Option (Text × Text)
  | q :: r =>
    if isQuote q then
      match r.dropWhile (· != q) with
      | [] => none
      | close :: behind => some (q :: (r.takeWhile (· != q) ++ [close]), behind)
    else none
  | [] => none

/-- One byte of a given class. -/
def cutByte? (p : UInt8 → Bool) : Text → Option (Text × Text)
  | b :: r => if p b then some ([b], r) else none
  | [] => none

/-! ### The rules -/

/-- The rules by which a source text is cut. -/
inductive Rule where
  | lineComment
  | blockComment
  | blanks
  | number
  | string
  | semicolon
  | operator
  deriving DecidableEq

namespace Rule

/-- The kind of token a rule makes of its lexeme; comments and blanks make none. -/
def kind? : Rule → Option Kind
  | .lineComment | .blockComment | .blanks => none
  | .number => some .number
  | .string => some .string
  | .semicolon => some .semicolon
  | .operator => some .operator

/-- The lexeme of a rule at the front of a text, and the text behind it. -/
def cut? : Rule → Text → Option (Text × Text)
  | .lineComment => cutLineComment?
  | .blockComment => cutBlockComment?
  | .blanks => cutBlanks?
  | .number => cutNumber?
  | .string => cutString?
  | .semicolon => cutByte? isSemicolon
  | .operator => cutByte? isOperator

/-- The rules in the order in which they are tried. -/
def table : List Rule :=
  [.lineComment, .blockComment, .blanks, .number, .string, .semicolon, .operator]

end Rule

/-! ### Nothing is lost and something is cut off -/

section Cut

variable {t l r : Text}

theorem append_of_cutLineComment? (h : cutLineComment? t = some (l, r)) : l ++ r = t := by
  unfold cutLineComment? at h
  split at h
  · obtain ⟨rfl, rfl⟩ := by simpa using h
    simp
  · simp at h

theorem append_of_cutClosing? (h : cutClosing? t = some (l, r)) : l ++ r = t := by
  fun_induction cutClosing? t generalizing l r with
  | case1 u =>
    obtain ⟨rfl, rfl⟩ := by simpa using h
    rfl
  | case2 b u _ ih =>
    obtain ⟨⟨l', r'⟩, hu, hlr⟩ := Option.map_eq_some_iff.1 h
    obtain ⟨rfl, rfl⟩ := Prod.mk.inj hlr
    simp [ih hu]
  | case3 => simp at h

theorem append_of_cutBlockComment? (h : cutBlockComment? t = some (l, r)) : l ++ r = t := by
  unfold cutBlockComment? at h
  split at h
  · obtain ⟨⟨l', r'⟩, hu, hlr⟩ := Option.map_eq_some_iff.1 h
    obtain ⟨rfl, rfl⟩ := Prod.mk.inj hlr
    simp [append_of_cutClosing? hu]
  · simp at h

theorem spanBlanks_append (t : Text) : (spanBlanks t).1 ++ (spanBlanks t).2 = t := by
  fun_induction spanBlanks t with
  | case1 t c h hb cut ih =>
    obtain ⟨u, rfl⟩ := firstChar?_eq_some_iff.1 h
    simp only [cut]
    rw [← String.length_utf8EncodeChar, List.drop_left] at ih ⊢
    simp [ih]
  | case2 => rfl
  | case3 => rfl

theorem append_of_cutBlanks? (h : cutBlanks? t = some (l, r)) : l ++ r = t ∧ l ≠ [] := by
  unfold cutBlanks? at h
  split at h
  · simp at h
  · next hne =>
    have hspan := spanBlanks_append t
    rw [Option.some.inj h] at hne hspan
    exact ⟨hspan, hne⟩

theorem append_of_cutNumber? (h : cutNumber? t = some (l, r)) : l ++ r = t ∧ l ≠ [] := by
  unfold cutNumber? at h
  split at h
  · simp at h
  · next hne =>
    obtain ⟨rfl, rfl⟩ := Prod.mk.inj (Option.some.inj h)
    exact ⟨List.takeWhile_append_dropWhile, hne⟩

theorem append_of_cutString? (h : cutString? t = some (l, r)) : l ++ r = t ∧ l ≠ [] := by
  unfold cutString? at h
  split at h
  · next q u =>
    split at h
    · split at h
      · simp at h
      · next close behind hd =>
        obtain ⟨rfl, rfl⟩ := Prod.mk.inj (Option.some.inj h)
        have := List.takeWhile_append_dropWhile (p := (· != q)) (l := u)
        rw [hd] at this
        simp [this]
    · simp at h
  · simp at h

theorem append_of_cutByte? {p : UInt8 → Bool} (h : cutByte? p t = some (l, r)) :
    l ++ r = t ∧ l ≠ [] := by
  unfold cutByte? at h
  split at h
  · split at h
    · obtain ⟨rfl, rfl⟩ := Prod.mk.inj (Option.some.inj h)
      simp
    · simp at h
  · simp at h

/-- A lexeme and the text behind it are the text they were cut from. -/
theorem Rule.append_of_cut? {rule : Rule} (h : rule.cut? t = some (l, r)) : l ++ r = t := by
  cases rule with
  | lineComment => exact append_of_cutLineComment? h
  | blockComment => exact append_of_cutBlockComment? h
  | blanks => exact (append_of_cutBlanks? h).1
  | number => exact (append_of_cutNumber? h).1
  | string => exact (append_of_cutString? h).1
  | semicolon => exact (append_of_cutByte? h).1
  | operator => exact (append_of_cutByte? h).1

/-- No lexeme is empty. -/
theorem Rule.ne_nil_of_cut? {rule : Rule} (h : rule.cut? t = some (l, r)) : l ≠ [] := by
  cases rule with
  | lineComment =>
    simp only [Rule.cut?, cutLineComment?] at h
    split at h
    · simp only [Option.some.injEq, Prod.mk.injEq] at h
      simp [← h.1]
    · simp at h
  | blockComment =>
    simp only [Rule.cut?, cutBlockComment?] at h
    split at h
    · obtain ⟨cut, -, hlr⟩ := Option.map_eq_some_iff.1 h
      simp [← (Prod.mk.inj hlr).1]
    · simp at h
  | blanks => exact (append_of_cutBlanks? h).2
  | number => exact (append_of_cutNumber? h).2
  | string => exact (append_of_cutString? h).2
  | semicolon => exact (append_of_cutByte? h).2
  | operator => exact (append_of_cutByte? h).2

/-- The text behind a lexeme is shorter. -/
theorem Rule.length_lt_of_cut? {rule : Rule} (h : rule.cut? t = some (l, r)) :
    r.length < t.length := by
  have hpos := List.length_pos_iff.2 (Rule.ne_nil_of_cut? h)
  rw [← Rule.append_of_cut? h, List.length_append]
  omega

end Cut

end ExprLang
