import ExprLang.Proofs.Grammar.Lookahead
import ExprLang.Proofs.Lexical.Alignment
import ExprLang.Proofs.Lexical.Cut
import ExprLang.Proofs.Number.Shortest
import Mathlib.Algebra.Order.BigOperators.Group.List

/-!
# The parenthesised form without its parentheses

The parenthesised form is written fragment by fragment, and each parenthesis in it is a fragment of
its own (`Program.fragments`).  Without them it is the bare form, in which nothing but rank and
position tell how operators nest.

The main statement is `parse_bare`: a program that comes from a source text is read back from its
bare form, provided its numbers are finite and its texts are quoted without an escape.  Such a text
holds no double quote (`notMem_of_quoted_eq`), a number is printed as digits that denote it
(`IsDigitRun.plain`), and every operator stands between two literals, so no slash begins a comment.
Hence the bare form is read as the symbols of the program again (`Stmt.readsAs_bareAll`).
-/

namespace ExprLang

/-! ## Fragments -/

/-- A fragment of the parenthesised form. -/
inductive Fragment where
  /-- The parenthesis before the operands of an operator. -/
  | opening
  /-- The parenthesis behind the operands of an operator. -/
  | closing
  /-- Anything else that is written at once. -/
  | other (t : Text)

namespace Fragment

/-- The bytes of a fragment. -/
def text : Fragment → Text
  | .opening => utf8 "("
  | .closing => utf8 ")"
  | .other t => t

/-- The bytes of a fragment that is not a parenthesis. -/
def bare : Fragment → Text
  | .opening | .closing => []
  | .other t => t

end Fragment

/-- The fragments of an expression. -/
def Expr.fragments : Expr → List Fragment
  | .missing => []
  | .number v => [.other v.plain]
  | .text v => [.other (quoted v)]
  | .binary op l r => .opening :: l.fragments ++ [.other op] ++ r.fragments ++ [.closing]

/-- The fragments of a statement. -/
def Stmt.fragments : Stmt → List Fragment
  | .missing => []
  | .expression e => e.fragments ++ [.other (utf8 ";")]

/-- The fragments of a list of statements, with line feeds between them. -/
def Stmt.fragmentsAll : List Stmt → List Fragment
  | [] => []
  | [s] => s.fragments
  | s :: s' :: body => s.fragments ++ [.other (utf8 "\n")] ++ fragmentsAll (s' :: body)

/-- The fragments of a program. -/
def Program.fragments (p : Program) : List Fragment := Stmt.fragmentsAll p.body

/-- The parenthesised form of a program without its parentheses. -/
def Program.bare (p : Program) : Text := p.fragments.flatMap Fragment.bare

/-- The fragments of an expression make up its parenthesised form. -/
lemma Expr.flatMap_text_fragments (e : Expr) : e.fragments.flatMap Fragment.text = e.canonical := by
  induction e with
  | missing => rfl
  | number v => simp [fragments, Fragment.text]
  | text v => simp [fragments, Fragment.text]
  | binary op l r ihl ihr => simp [fragments, ihl, ihr, Fragment.text]

/-- The fragments of a statement make up its parenthesised form. -/
lemma Stmt.flatMap_text_fragments (s : Stmt) : s.fragments.flatMap Fragment.text = s.canonical := by
  cases s with
  | missing => rfl
  | expression e => simp [fragments, canonical, e.flatMap_text_fragments, Fragment.text]

/-- The fragments of a program make up its parenthesised form. -/
lemma Program.flatMap_text_fragments (p : Program) :
    p.fragments.flatMap Fragment.text = p.canonical := by
  rw [fragments, canonical]
  induction p.body with
  | nil => rfl
  | cons s body ih =>
    cases body with
    | nil => exact s.flatMap_text_fragments
    | cons s' body =>
      simp only [Stmt.fragmentsAll, List.flatMap_append, s.flatMap_text_fragments, ih]
      simp [Text.join, Fragment.text]

/-! ## Texts that are quoted without an escape -/

/-- Every character has a byte. -/
lemma Text.length_le_length_ofChars (cs : List Char) : cs.length ≤ (ofChars cs).length := by
  induction cs with
  | nil => rfl
  | cons c cs ih =>
    have hpos := Char.utf8Size_pos c
    rw [ofChars_cons, List.length_append, String.length_utf8EncodeChar, List.length_cons]
    omega

/-- The characters that are escaped by a letter have one byte. -/
lemma utf8Size_of_lookup_letterEscapes {c letter : Char}
    (h : Quoted.letterEscapes.lookup c = some letter) : c.utf8Size = 1 := by
  obtain ⟨l, r, hsplit, -⟩ := List.lookup_eq_some_iff.1 h
  have hall : ∀ x ∈ Quoted.letterEscapes, x.1.utf8Size = 1 := by decide
  exact hall (c, letter) (by simp [hsplit])

/-- An escaped piece has at least as many bytes as the piece, and more if it is a double quote. -/
lemma Piece.length_bytes_le (x : Piece) :
    x.bytes.length ≤ (Text.ofChars (Quoted.escape x)).length ∧
      (0x22 ∈ x.bytes → x.bytes.length < (Text.ofChars (Quoted.escape x)).length) := by
  have hescape := Text.length_le_length_ofChars (Quoted.escape x)
  cases x with
  | stray b =>
    have hlength : (Quoted.escape (.stray b)).length = 4 := by simp [Quoted.escape]
    have hone : (Piece.stray b).bytes.length = 1 := rfl
    omega
  | char c =>
    have hbytes : (Piece.char c).bytes.length = c.utf8Size := String.length_utf8EncodeChar c
    have hsize := Char.utf8Size_le_four c
    cases hletter : Quoted.letterEscapes.lookup c with
    | some letter =>
      have hlength : (Quoted.escape (.char c)).length = 2 := by simp [Quoted.escape, hletter]
      have hone := utf8Size_of_lookup_letterEscapes hletter
      omega
    | none =>
      have hquote : 0x22 ∉ (Piece.char c).bytes := by
        intro hmem
        have hnat : c.toNat = '"'.toNat := by
          rcases toNat_of_mem_utf8EncodeChar hmem with hnat | hnat
          · exact hnat.symm
          · exact absurd hnat (by decide)
        rw [Char.toNat_inj.1 hnat] at hletter
        exact absurd hletter (by decide)
      refine ⟨?_, fun hmem => absurd hmem hquote⟩
      -- a printable character stands for itself, and every other escape has four characters
      by_cases hself : Quoted.escape (.char c) = [c]
      · rw [hself, hbytes, Text.ofChars_cons, Text.ofChars_nil, List.append_nil,
          String.length_utf8EncodeChar]
      · have hlength : 4 ≤ (Quoted.escape (.char c)).length := by
          simp only [Quoted.escape, hletter] at hself ⊢
          split_ifs at hself ⊢ <;> simp at hself ⊢
        omega

/-- A text that stands in its quoted form as it is holds no double quote: its bytes would be fewer
than those of its escaped pieces. -/
lemma notMem_of_quoted_eq {v : Text} (h : quoted v = utf8 "\"" ++ v ++ utf8 "\"") : 0x22 ∉ v := by
  have hescaped : (pieces v).flatMap (fun x => Text.ofChars (Quoted.escape x)) = v := by
    have hquoted : quoted v = utf8 "\"" ++
        (pieces v).flatMap (fun x => Text.ofChars (Quoted.escape x)) ++ utf8 "\"" := by
      simp [quoted, Text.ofChars, List.flatMap_assoc, utf8]
    rw [hquoted] at h
    exact List.append_cancel_left (List.append_cancel_right h)
  have hbytes := flatMap_bytes_pieces v
  intro hmem
  obtain ⟨x, hx, hquote⟩ : ∃ x ∈ pieces v, 0x22 ∈ x.bytes := by
    rw [← hbytes] at hmem
    exact List.mem_flatMap.1 hmem
  have hlt : ((pieces v).flatMap Piece.bytes).length <
      ((pieces v).flatMap fun x => Text.ofChars (Quoted.escape x)).length := by
    rw [List.length_flatMap, List.length_flatMap]
    exact List.sum_lt_sum _ _ (fun x _ => x.length_bytes_le.1) ⟨x, hx, x.length_bytes_le.2 hquote⟩
  rw [hbytes, hescaped] at hlt
  exact absurd hlt (lt_irrefl _)

/-! ## Texts that are read as symbols -/

/-- In front of a rest, a text falls into tokens that spell a list of symbols. -/
def ReadsAs (t : Text) (xs : List Symbol) (r : Text) : Prop :=
  ∀ l : Location, ∃ ts l', Spell ts xs ∧
    (⟨t ++ r, l⟩ : Cursor).drain =
      (ts ++ (⟨r, l'⟩ : Cursor).drain.1, (⟨r, l'⟩ : Cursor).drain.2)

namespace ReadsAs

variable {t u r : Text} {xs ys : List Symbol}

/-- Texts are read one after the other. -/
lemma append (ht : ReadsAs t xs (u ++ r)) (hu : ReadsAs u ys r) :
    ReadsAs (t ++ u) (xs ++ ys) r := by
  intro l
  obtain ⟨ts, l', hts, hdrain⟩ := ht l
  obtain ⟨us, l'', hus, hdrain'⟩ := hu l'
  refine ⟨ts ++ us, l'', hts.append hus, ?_⟩
  rw [List.append_assoc, hdrain, hdrain', List.append_assoc]

/-- A lexeme that fits is read as the symbol that its token stands for. -/
lemma of_fits {rule : Rule} {kind : Kind} {x : Symbol} (h : rule.Fits t r)
    (hk : rule.kind? = some kind) (hx : ∀ l, Token.Spells ⟨kind, t, l⟩ x) : ReadsAs t [x] r := by
  intro l
  exact ⟨[⟨kind, t, l⟩], l.after t, .cons (hx l) .nil, Cursor.drain_append_of_kind h hk l⟩

/-- A line feed is read as nothing. -/
lemma lineFeed (r : Text) : ReadsAs (utf8 "\n") [] r := by
  intro l
  have hblank : isBlank '\n' := by decide
  exact ⟨[], l.past (.char '\n'), .nil, Cursor.drain_blank_append hblank r l⟩

/-- A text that is read as the symbols of a normal program is parsed as this program. -/
lemma parse_eq_ok {p : Program} (h : ReadsAs t p.yield []) (hne : p.body ≠ [])
    (hnormal : p.isNormal) : parse t = .ok p := by
  obtain ⟨ts, l', hspell, hdrain⟩ := h .start
  have htokens : tokenize t = .ok ts := by
    rw [tokenize_eq_ok_iff, Cursor.ofText]
    simpa [Cursor.drain_nil] using hdrain
  exact (Parser.outcome_eq_ok_iff_parseTokens (delivers_of_tokenize_ok htokens)).2
    (parseTokens_eq_ok_iff.2 ⟨hne, hnormal, hspell⟩)

end ReadsAs

/-! ## The bare form is read as the yield -/

/-- What is written for a symbol is a lexeme that stands for it. -/
def Symbol.IsReadable : Symbol → Prop
  | .number v => IsDigitRun v.plain ∧ Binary64.ofText v.plain = v
  | .text v => quoted v = utf8 "\"" ++ v ++ utf8 "\""
  | .operator op => ∃ b, op = [b] ∧ isOperator b
  | .semicolon => True

/-- The bare form of an expression. -/
def Expr.bare (e : Expr) : Text := e.fragments.flatMap Fragment.bare

namespace Expr

lemma bare_number (v : Binary64) : bare (.number v) = v.plain := by
  simp [bare, fragments, Fragment.bare]

lemma bare_text (v : Text) : bare (.text v) = quoted v := by
  simp [bare, fragments, Fragment.bare]

lemma bare_binary (op : Text) (l r : Expr) :
    bare (.binary op l r) = l.bare ++ (op ++ r.bare) := by
  simp [bare, fragments, Fragment.bare]

/-- The bare form of an expression begins with a digit or a quote. -/
lemma exists_bare_eq_cons {e : Expr} (hcomplete : e.isComplete)
    (hreadable : ∀ x ∈ e.yield, x.IsReadable) :
    ∃ b u, e.bare = b :: u ∧ (isDigit b ∨ b = 0x22) := by
  induction e with
  | missing => simp [isComplete] at hcomplete
  | number v =>
    obtain ⟨hrun, -⟩ := hreadable (.number v) (by simp [yield])
    obtain ⟨b, u, hplain⟩ := List.exists_cons_of_ne_nil hrun.ne_nil
    refine ⟨b, u, by rw [bare_number, hplain], .inl (hrun.digit b ?_)⟩
    simp [hplain]
  | text v =>
    have hquoted : quoted v = utf8 "\"" ++ v ++ utf8 "\"" := hreadable (.text v) (by simp [yield])
    exact ⟨0x22, v ++ [0x22], by rw [bare_text, hquoted]; rfl, .inr rfl⟩
  | binary op l r ihl _ =>
    simp only [isComplete, Bool.and_eq_true] at hcomplete
    obtain ⟨b, u, hbare, hb⟩ := ihl hcomplete.1 fun x hx => hreadable x (by simp [yield, hx])
    exact ⟨b, u ++ (op ++ r.bare), by rw [bare_binary, hbare, List.cons_append], hb⟩

/-- The bare form of an expression is read as its symbols if no digit follows. -/
lemma readsAs_bare {e : Expr} (hcomplete : e.isComplete)
    (hreadable : ∀ x ∈ e.yield, x.IsReadable) {r : Text}
    (hr : ∀ b, r.head? = some b → isDigit b = false) : ReadsAs e.bare e.yield r := by
  induction e generalizing r with
  | missing => simp [isComplete] at hcomplete
  | number v =>
    obtain ⟨hrun, hvalue⟩ := hreadable (.number v) (by simp [yield])
    rw [bare_number]
    have hfits : Rule.number.Fits v.plain r := ⟨hrun.ne_nil, hrun.digit, hr⟩
    exact .of_fits hfits rfl fun _ => ⟨rfl, hvalue⟩
  | text v =>
    have hquoted : quoted v = utf8 "\"" ++ v ++ utf8 "\"" := hreadable (.text v) (by simp [yield])
    have hword : quoted v = 0x22 :: (v ++ [0x22]) := hquoted
    rw [bare_text]
    have hfits : Rule.string.Fits (quoted v) r :=
      ⟨0x22, v, hword, by decide, notMem_of_quoted_eq hquoted⟩
    exact .of_fits hfits rfl fun _ => ⟨rfl, .inl ⟨_, _, hword⟩⟩
  | binary op l r' ihl ihr =>
    simp only [isComplete, Bool.and_eq_true] at hcomplete
    have hleft : ∀ x ∈ l.yield, x.IsReadable := fun x hx => hreadable x (by simp [yield, hx])
    have hright : ∀ x ∈ r'.yield, x.IsReadable := fun x hx => hreadable x (by simp [yield, hx])
    obtain ⟨o, rfl, ho⟩ := hreadable (.operator op) (by simp [yield])
    -- the operator comes between its operands, and the right one begins with no slash or star
    obtain ⟨b, u, hbare, hb⟩ := exists_bare_eq_cons hcomplete.2 hright
    have hfits : Rule.operator.Fits [o] (r'.bare ++ r) := by
      refine ⟨o, rfl, ho, fun _ => ?_⟩
      rw [hbare, List.cons_append]
      constructor
      · intro hslash
        obtain rfl : b = 0x2F := Option.some.inj hslash
        exact absurd hb (by decide)
      · intro behind hstar
        obtain rfl : b = 0x2A := (List.cons.inj hstar).1
        exact absurd hb (by decide)
    have hdigit : isDigit o = false := by
      simp only [isOperator, Bool.or_eq_true, beq_iff_eq] at ho
      rcases ho with ((rfl | rfl) | rfl) | rfl <;> rfl
    have hoperator : ReadsAs [o] [.operator [o]] (r'.bare ++ r) :=
      .of_fits hfits rfl fun _ => ⟨rfl, rfl⟩
    rw [bare_binary, yield]
    refine .append (ihl hcomplete.1 hleft ?_) (.append hoperator (ihr hcomplete.2 hright hr))
    rintro b' ⟨⟩
    exact hdigit

end Expr

/-- A semicolon ends a statement, whatever follows. -/
lemma Stmt.readsAs_bare {s : Stmt} (hcomplete : s.isComplete)
    (hreadable : ∀ x ∈ s.yield, x.IsReadable) (r : Text) :
    ReadsAs (s.fragments.flatMap Fragment.bare) s.yield r := by
  cases s with
  | missing => simp [isComplete] at hcomplete
  | expression e =>
    have hbare : (fragments (.expression e)).flatMap Fragment.bare = e.bare ++ utf8 ";" := by
      simp [fragments, Expr.bare, Fragment.bare]
    have hfits : Rule.semicolon.Fits (utf8 ";") r := rfl
    have hsemicolon : ReadsAs (utf8 ";") [.semicolon] r := .of_fits hfits rfl fun _ => rfl
    rw [hbare]
    refine .append (e.readsAs_bare hcomplete ?_ ?_) hsemicolon
    · exact fun x hx => hreadable x (by simp [yield, hx])
    · rintro b ⟨⟩
      rfl

/-- The bare forms of statements with line feeds between them are read as all their symbols. -/
lemma Stmt.readsAs_bareAll {body : List Stmt} (hcomplete : ∀ s ∈ body, s.isComplete)
    (hreadable : ∀ x ∈ body.flatMap yield, x.IsReadable) :
    ReadsAs ((fragmentsAll body).flatMap Fragment.bare) (body.flatMap yield) [] := by
  induction body using fragmentsAll.induct with
  | case1 => exact fun l => ⟨[], l, .nil, rfl⟩
  | case2 s =>
    rw [List.flatMap_singleton] at hreadable ⊢
    exact s.readsAs_bare (hcomplete s (by simp)) hreadable []
  | case3 s s' body ih =>
    have hfirst : ∀ x ∈ s.yield, x.IsReadable := fun x hx => hreadable x (by simp [hx])
    have hrest := ih (fun s'' hs'' => hcomplete s'' (List.mem_cons_of_mem s hs''))
      fun x hx => hreadable x (List.mem_append_right _ hx)
    have hbare : (fragmentsAll (s :: s' :: body)).flatMap Fragment.bare =
        s.fragments.flatMap Fragment.bare ++
          (utf8 "\n" ++ (fragmentsAll (s' :: body)).flatMap Fragment.bare) := by
      simp [fragmentsAll, Fragment.bare]
    have hnext := (ReadsAs.lineFeed _).append hrest
    rw [List.nil_append] at hnext
    rw [hbare, List.flatMap_cons]
    exact .append (s.readsAs_bare (hcomplete s (by simp)) hfirst _) hnext

/-! ## Programs that come from texts -/

/-- A normal expression is complete. -/
lemma Expr.isComplete_of_isNormal {e : Expr} (h : e.isNormal) : e.isComplete := by
  have hliteral {e : Expr} (h : e.isLiteral) : e.isComplete := by
    cases e <;> simp_all [isLiteral, isComplete]
  have hproduct {e : Expr} (h : e.isProduct) : e.isComplete := by
    induction h using isProduct_induction with
    | literal e h => exact hliteral h
    | product op l r _ _ hr ih => simp [isComplete, ih, hliteral hr]
  induction h using isNormal_induction with
  | product e h => exact hproduct h
  | sum op l r _ _ hr ih => simp [isComplete, ih, hproduct hr]

/-- The tokens of a text that is parsed spell the program, which is normal and not empty. -/
lemma spell_of_parse {src : Text} {p : Program} (h : parse src = .ok p) :
    p.body ≠ [] ∧ p.isNormal ∧ Spell (Cursor.ofText src).drain.1 p.yield := by
  rw [parse_eq_conclude] at h
  obtain ⟨-, s, hrun, hfinish⟩ := State.exists_of_conclude_eq_ok h
  refine parseTokens_eq_ok_iff.1 ?_
  rw [parseTokens, hrun]
  exact hfinish

/-- The symbols of a text are readable, except for infinite numbers and texts with an escape. -/
lemma isReadable_of_mem_drain {c : Cursor} {t : Token} (ht : t ∈ c.drain.1) {x : Symbol}
    (hx : t.Spells x) (hfinite : ∀ v, x = .number v → ∃ negative m, v = .finite negative m)
    (hverbatim : ∀ v, x = .text v → quoted v = utf8 "\"" ++ v ++ utf8 "\"") : x.IsReadable := by
  obtain ⟨rule, r, hkind, hfits⟩ := Cursor.exists_fits_of_mem_drain ht
  cases x with
  | number v =>
    obtain ⟨hnumber, hvalue⟩ := hx
    obtain rfl : rule = .number := by cases rule <;> simp_all [Rule.kind?]
    obtain ⟨hne, hdigit, -⟩ := hfits
    have hrun : IsDigitRun t.value := ⟨hne, hdigit⟩
    obtain ⟨negative, m, rfl⟩ := hfinite v rfl
    exact hrun.plain hvalue
  | text v => exact hverbatim v rfl
  | operator op =>
    obtain ⟨hoperator, rfl⟩ := hx
    obtain rfl : rule = .operator := by cases rule <;> simp_all [Rule.kind?]
    obtain ⟨b, hb, hb', -⟩ := hfits
    exact ⟨b, hb, hb'⟩
  | semicolon => trivial

/-- Let a program come from a source text, with finite numbers and texts that are quoted without an
escape.  Its fragments make up the parenthesised form, and from those that are no parentheses the
same program is read back. -/
theorem parse_bare {src : Text} {p : Program} (h : parse src = .ok p)
    (hfinite : ∀ v, .number v ∈ p.yield → ∃ negative m, v = .finite negative m)
    (hverbatim : ∀ v, .text v ∈ p.yield → quoted v = utf8 "\"" ++ v ++ utf8 "\"") :
    p.fragments.flatMap Fragment.text = p.canonical ∧ parse p.bare = .ok p := by
  obtain ⟨hne, hnormal, hspell⟩ := spell_of_parse h
  have hcomplete : ∀ s ∈ p.body, s.isComplete := by
    intro s hs
    have hs' : s.isNormal := List.all_eq_true.1 hnormal s hs
    cases s with
    | missing => simp [Stmt.isNormal] at hs'
    | expression e => exact e.isComplete_of_isNormal hs'
  have hreadable : ∀ x ∈ p.yield, x.IsReadable := by
    intro x hx
    obtain ⟨t, ht, htx⟩ := hspell.exists_of_mem hx
    exact isReadable_of_mem_drain ht htx (fun v hv => hfinite v (hv ▸ hx))
      fun v hv => hverbatim v (hv ▸ hx)
  exact ⟨p.flatMap_text_fragments,
    (Stmt.readsAs_bareAll hcomplete hreadable).parse_eq_ok hne hnormal⟩

/-- The program of a division by a text that looks like a comment, and of a text on a line of its
own. -/
def bareProgram : Program :=
  ⟨[.expression (.binary (utf8 "-") (.number (.finite false ⟨0x18000000000000, 1025, by decide⟩))
      (.binary (utf8 "*")
        (.binary (utf8 "/") (.number (.finite false ⟨0x10000000000000, 1023, by decide⟩))
          (.text (utf8 "/* a")))
        (.number (.finite false ⟨0x18000000000000, 1023, by decide⟩)))),
    .expression (.text (utf8 "x"))]⟩

/-- Quotes, blanks, comments and leading zeros of the source are gone, and the program is read back
without its parentheses. -/
theorem parse_bareProgram :
    parse (utf8 "12 - 2/'/* a'*03 ; // c\n\"x\";") = .ok bareProgram ∧
      bareProgram.canonical = utf8 "(12-((2/\"/* a\")*3));\n\"x\";" ∧
      bareProgram.bare = utf8 "12-2/\"/* a\"*3;\n\"x\";" ∧
      parse bareProgram.bare = .ok bareProgram := by
  have hparse : parse (utf8 "12 - 2/'/* a'*03 ; // c\n\"x\";") = .ok bareProgram := by
    decide +kernel
  refine ⟨hparse, by decide +kernel, by decide +kernel, (parse_bare hparse ?_ ?_).2⟩
  · intro v hv
    simp [bareProgram, Program.yield, Stmt.yield, Expr.yield] at hv
    rcases hv with rfl | rfl | rfl <;> exact ⟨_, _, rfl⟩
  · intro v hv
    simp [bareProgram, Program.yield, Stmt.yield, Expr.yield] at hv
    rcases hv with rfl | rfl <;> decide +kernel

end ExprLang
