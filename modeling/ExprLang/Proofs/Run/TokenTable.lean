import ExprLang.Format
import ExprLang.Proofs.Lexical.Cut
import ExprLang.Proofs.Number.Shortest
import ExprLang.Proofs.Text.Quoting

/-!
# Reading the token table

The table of tokens has a line for each token, and each line has three fields divided by tabs: the
location, the name of the kind and the quoted text.  `tokensOfTable?` reads a table by splitting it
at line feeds and each line at tabs.

No field holds a tab, a line feed or any other control (`isControl_of_mem_fields`), since numbers are
written in digits, names in letters and quoted texts without controls.  So the table splits where it
was put together (`lines_tokenTable`), and every field is read back: numbers by
`readWord?_ofInt`, texts by `unquote?_quoted`.

The main statement is `render_tokens`: the table of a text that has tokens is a text of such lines,
and the tokens are read back from it with their locations, kinds and bytes.
-/

namespace ExprLang

/-! ## Reading fields -/

/-- The integer that is written in decimal digits, behind a minus sign if it is negative. -/
def readInt? (t : Text) : Option ℤ :=
  let digits := if t.head? = some 0x2D then t.drop 1 else t
  if digits ≠ [] ∧ digits.all isDigit then
    let n : ℤ := Numeral.digitsValue 10 digits
    some (if t.head? = some 0x2D then -n else n)
  else none

/-- The integer that is written in decimal digits, if a word can hold it. -/
def readWord? (t : Text) : Option Int64 :=
  (readInt? t).bind fun i => if (Int64.ofInt i).toInt = i then some (Int64.ofInt i) else none

/-- The location that is written as a line, a colon and a column. -/
def Location.ofText? (t : Text) : Option Location :=
  match t.splitOn 0x3A with
  | [line, column] =>
    (readWord? line).bind fun l => (readWord? column).map fun c => ⟨l, c⟩
  | _ => none

/-- The kinds that have a name. -/
def Kind.named : List Kind := [.number, .string, .semicolon, .operator]

/-- The kind with a given name. -/
def Kind.ofName? (t : Text) : Option Kind := named.find? (·.name = t)

/-- The token that is written in a line of a table. -/
def Token.ofRow? (line : Text) : Option Token :=
  match line.splitOn 0x09 with
  | [loc, kind, value] =>
    (Location.ofText? loc).bind fun l =>
      (Kind.ofName? kind).bind fun k => (unquote? value).map fun v => ⟨k, v, l⟩
  | _ => none

/-- The lines of a text, each without the line feed that ends it. -/
def lines (t : Text) : List Text := (t.splitOn 0x0A).dropLast

/-- The tokens that are written in a table, one to a line. -/
def tokensOfTable? (t : Text) : Option (List Token) :=
  if (t.splitOn 0x0A).getLast? = some [] then (lines t).mapM Token.ofRow? else none

/-! ## Numbers -/

/-- An integer is written in digits, behind a minus sign if it is negative. -/
lemma mem_ofInt {i : ℤ} {b : UInt8} (h : b ∈ Text.ofInt i) : isDigit b ∨ b = 0x2D := by
  cases i with
  | ofNat n => exact .inl ((isDigitRun_ofNat n).1.digit b h)
  | negSucc n =>
    rcases List.mem_append.1 h with h | h
    · exact .inr (List.mem_singleton.1 h)
    · exact .inl ((isDigitRun_ofNat (n + 1)).1.digit b h)

/-- An integer is read back from its digits. -/
lemma readInt?_ofInt (i : ℤ) : readInt? (Text.ofInt i) = some i := by
  cases i with
  | ofNat n =>
    obtain ⟨hrun, hvalue⟩ := isDigitRun_ofNat n
    have hhead : (Text.ofNat n).head? ≠ some 0x2D := by
      intro hhead
      exact absurd (hrun.digit _ (List.mem_of_mem_head? hhead)) (by decide)
    have hall : (Text.ofNat n).all isDigit := List.all_eq_true.2 hrun.digit
    simp [readInt?, Text.ofInt, hhead, hrun.ne_nil, hall, hvalue]
  | negSucc n =>
    obtain ⟨hrun, hvalue⟩ := isDigitRun_ofNat (n + 1)
    have hsign : Text.ofInt (.negSucc n) = 0x2D :: Text.ofNat (n + 1) := rfl
    have hall : (Text.ofNat (n + 1)).all isDigit := List.all_eq_true.2 hrun.digit
    rw [hsign, Int.negSucc_eq]
    simp [readInt?, hrun.ne_nil, hall, hvalue]

/-- A word is read back from its digits. -/
lemma readWord?_ofInt (w : Int64) : readWord? (Text.ofInt w.toInt) = some w := by
  simp [readWord?, readInt?_ofInt]

namespace Location

/-- A location is written without controls. -/
lemma isControl_of_mem_text {l : Location} {b : UInt8} (h : b ∈ l.text) : isControl b = false := by
  have hint {i : ℤ} (hb : b ∈ Text.ofInt i) : isControl b = false := by
    rw [isControl_eq_false_iff]
    rcases mem_ofInt hb with hdigit | rfl
    · have hrange := isDigit_iff.1 hdigit
      omega
    · decide
  simp only [text, List.mem_append] at h
  rcases h with (h | h) | h
  · exact hint h
  · rw [List.mem_singleton.1 (show b ∈ [0x3A] from h)]
    rfl
  · exact hint h

/-- A location is read back. -/
lemma ofText?_text (l : Location) : ofText? l.text = some l := by
  have hcolon (i : ℤ) : (0x3A : UInt8) ∉ Text.ofInt i := by
    intro hmem
    exact absurd (mem_ofInt hmem) (by decide)
  have hsplit : l.text.splitOn 0x3A = [Text.ofInt l.line.toInt, Text.ofInt l.column.toInt] := by
    have htext : l.text = Text.ofInt l.line.toInt ++ 0x3A :: Text.ofInt l.column.toInt := by
      simp [text, utf8, String.utf8EncodeChar]
    rw [htext, List.splitOn_append_cons_self_of_not_mem (hcolon _),
      List.splitOn_eq_singleton (hcolon _)]
  simp only [ofText?, hsplit, readWord?_ofInt, Option.bind_some, Option.map_some]

lemma isUtf8_text (l : Location) : IsUtf8 l.text := by
  have hint (i : ℤ) : IsUtf8 (Text.ofInt i) := by
    cases i with
    | ofNat n => exact isUtf8_ofChars _
    | negSucc n => exact (isUtf8_ofChars _).append (isUtf8_ofChars _)
  exact ((hint _).append (isUtf8_utf8 ":")).append (hint _)

end Location

namespace Kind

/-- The names of the kinds tell them apart and have no controls. -/
lemma ofName?_name {k : Kind} (h : k ∈ named) :
    ofName? k.name = some k ∧ (∀ b ∈ k.name, isControl b = false) ∧ IsUtf8 k.name := by
  have hall : ∀ k ∈ named, ofName? k.name = some k ∧ k.name.any isControl = false := by
    decide
  refine ⟨(hall k h).1, by simpa using (hall k h).2, ?_⟩
  cases k with
  | unnamed offset => simp [named] at h
  | _ => exact isUtf8_utf8 _

end Kind

/-! ## Rows -/

namespace Token

/-- The fields of a row. -/
def fields (t : Token) : Text := t.loc.text ++ 0x09 :: (t.kind.name ++ 0x09 :: quoted t.value)

lemma row_eq (t : Token) : t.row = t.fields ++ [0x0A] := by
  simp [row, fields, utf8, String.utf8EncodeChar]

variable {t : Token}

/-- A row has no controls but the two tabs between its fields and the line feed at its end. -/
lemma isControl_of_mem_fields (h : t.kind ∈ Kind.named) {b : UInt8} (hb : b ∈ t.fields)
    (htab : b ≠ 0x09) : isControl b = false := by
  simp only [fields, List.mem_append, List.mem_cons, htab, false_or] at hb
  rcases hb with hb | hb | hb
  · exact Location.isControl_of_mem_text hb
  · exact (Kind.ofName?_name h).2.1 b hb
  · exact isControl_of_mem_quoted hb

/-- No field of a row holds a tab. -/
lemma tab_notMem (h : t.kind ∈ Kind.named) :
    0x09 ∉ t.loc.text ∧ 0x09 ∉ t.kind.name ∧ 0x09 ∉ quoted t.value := by
  have htab : isControl 0x09 = true := rfl
  refine ⟨fun hmem => ?_, fun hmem => ?_, fun hmem => ?_⟩
  · exact Bool.false_ne_true ((Location.isControl_of_mem_text hmem).symm.trans htab)
  · exact Bool.false_ne_true (((Kind.ofName?_name h).2.1 _ hmem).symm.trans htab)
  · exact Bool.false_ne_true ((isControl_of_mem_quoted hmem).symm.trans htab)

/-- A row splits into its fields. -/
lemma splitOn_fields (h : t.kind ∈ Kind.named) :
    t.fields.splitOn 0x09 = [t.loc.text, t.kind.name, quoted t.value] := by
  obtain ⟨hloc, hkind, hvalue⟩ := tab_notMem h
  rw [fields, List.splitOn_append_cons_self_of_not_mem hloc,
    List.splitOn_append_cons_self_of_not_mem hkind, List.splitOn_eq_singleton hvalue]

/-- A row has two tabs. -/
lemma count_fields (h : t.kind ∈ Kind.named) : t.fields.count 0x09 = 2 := by
  obtain ⟨hloc, hkind, hvalue⟩ := tab_notMem h
  simp [fields, List.count_eq_zero_of_not_mem hloc, List.count_eq_zero_of_not_mem hkind,
    List.count_eq_zero_of_not_mem hvalue]

/-- A row has a line feed only at its end. -/
lemma lineFeed_notMem_fields (h : t.kind ∈ Kind.named) : 0x0A ∉ t.fields := by
  intro hmem
  have hcontrol := isControl_of_mem_fields h hmem (by decide)
  exact absurd hcontrol (by decide)

/-- A token is read back from its row. -/
lemma ofRow?_fields (h : t.kind ∈ Kind.named) : ofRow? t.fields = some t := by
  simp only [ofRow?, splitOn_fields h, Location.ofText?_text, (Kind.ofName?_name h).1,
    unquote?_quoted, Option.bind_some, Option.map_some]

lemma isUtf8_row (h : t.kind ∈ Kind.named) : IsUtf8 t.row :=
  ((((t.loc.isUtf8_text.append (isUtf8_utf8 "\t")).append (Kind.ofName?_name h).2.2).append
    (isUtf8_utf8 "\t")).append (isUtf8_quoted t.value)).append (isUtf8_utf8 "\n")

end Token

/-! ## Tables -/

section Table

variable {ts : List Token}

/-- A table begins with the row of its first token. -/
lemma tokenTable_cons (t : Token) (ts : List Token) :
    tokenTable (t :: ts) = t.fields ++ 0x0A :: tokenTable ts := by
  simp [tokenTable, Token.row_eq]

/-- A table splits into its rows, and nothing is behind the last line feed. -/
lemma splitOn_tokenTable (h : ∀ t ∈ ts, t.kind ∈ Kind.named) :
    (tokenTable ts).splitOn 0x0A = ts.map Token.fields ++ [[]] := by
  induction ts with
  | nil => rfl
  | cons t ts ih =>
    have hrow := Token.lineFeed_notMem_fields (h t (by simp))
    have hrest := ih fun t' ht' => h t' (List.mem_cons_of_mem t ht')
    rw [tokenTable_cons, List.splitOn_append_cons_self_of_not_mem hrow, hrest]
    rfl

/-- The lines of a table are its rows. -/
lemma lines_tokenTable (h : ∀ t ∈ ts, t.kind ∈ Kind.named) :
    lines (tokenTable ts) = ts.map Token.fields := by
  rw [lines, splitOn_tokenTable h, List.dropLast_concat]

/-- A table has a line feed for each token. -/
lemma count_tokenTable (h : ∀ t ∈ ts, t.kind ∈ Kind.named) :
    (tokenTable ts).count 0x0A = ts.length := by
  induction ts with
  | nil => rfl
  | cons t ts ih =>
    have hrow := Token.lineFeed_notMem_fields (h t (by simp))
    have hrest := ih fun t' ht' => h t' (List.mem_cons_of_mem t ht')
    rw [tokenTable_cons, List.count_append, List.count_eq_zero_of_not_mem hrow,
      List.count_cons_self, hrest, List.length_cons, Nat.zero_add]

/-- The tokens are read back from their table. -/
lemma tokensOfTable?_tokenTable (h : ∀ t ∈ ts, t.kind ∈ Kind.named) :
    tokensOfTable? (tokenTable ts) = some ts := by
  have hrows : (ts.map Token.fields).mapM Token.ofRow? = some ts := by
    induction ts with
    | nil => rfl
    | cons t ts ih =>
      have hrow := Token.ofRow?_fields (h t (by simp))
      have hrest := ih fun t' ht' => h t' (List.mem_cons_of_mem t ht')
      rw [List.map_cons, List.mapM_cons, hrow, hrest]
      rfl
  rw [tokensOfTable?, lines_tokenTable h, splitOn_tokenTable h, List.getLast?_concat, if_pos rfl,
    hrows]

/-- A table has no controls but the tabs and line feeds of its rows. -/
lemma isControl_of_mem_tokenTable (h : ∀ t ∈ ts, t.kind ∈ Kind.named) {b : UInt8}
    (hb : b ∈ tokenTable ts) (hline : b ≠ 0x0A) (htab : b ≠ 0x09) : isControl b = false := by
  obtain ⟨t, ht, hrow⟩ := List.mem_flatMap.1 hb
  rw [Token.row_eq, List.mem_append, List.mem_singleton] at hrow
  rcases hrow with hrow | rfl
  · exact Token.isControl_of_mem_fields (h t ht) hrow htab
  · exact absurd rfl hline

end Table

/-- The tokens of a text have kinds that have a name. -/
lemma kind_mem_named {src : Text} {ts : List Token} (h : tokenize src = .ok ts) :
    ∀ t ∈ ts, t.kind ∈ Kind.named := by
  intro t ht
  have hmem : t ∈ (Cursor.ofText src).drain.1 := by
    rw [tokenize_eq_ok_iff.1 h]
    exact ht
  obtain ⟨rule, r, hkind, -⟩ := Cursor.exists_fits_of_mem_drain hmem
  have hall : ∀ rule : Rule, ∀ k ∈ rule.kind?, k ∈ Kind.named := by
    rintro (_ | _ | _ | _ | _ | _ | _) <;> decide
  exact hall rule t.kind hkind

/-- A text that has tokens is rendered as their table.  It has a line feed for each token, two tabs
in every line and no control besides, and it is encoded in UTF-8.  Split at line feeds and tabs, it
gives the tokens back with every location, kind and byte. -/
theorem render_tokens {src : Text} {ts : List Token} (h : tokenize src = .ok ts)
    (outline : Program → Text) (name : Text) :
    ∃ table, Format.tokens.render outline name src = (.ok table, []) ∧
      table.count 0x0A = ts.length ∧
      (lines table).length = ts.length ∧
      (∀ line ∈ lines table, line.count 0x09 = 2) ∧
      (∀ b ∈ table, b ≠ 0x0A → b ≠ 0x09 → 0x20 ≤ b ∧ b ≠ 0x7F) ∧
      IsUtf8 table ∧
      tokensOfTable? table = some ts := by
  have hnamed := kind_mem_named h
  refine ⟨tokenTable ts, ?_, count_tokenTable hnamed, ?_, ?_, ?_, ?_,
    tokensOfTable?_tokenTable hnamed⟩
  · rw [Format.render, if_pos rfl, h]
  · rw [lines_tokenTable hnamed, List.length_map]
  · intro line hline
    rw [lines_tokenTable hnamed] at hline
    obtain ⟨t, ht, rfl⟩ := List.mem_map.1 hline
    exact Token.count_fields (hnamed t ht)
  · intro b hb hline htab
    have hplain := isControl_of_mem_tokenTable hnamed hb hline htab
    rwa [isControl, Bool.or_eq_false_iff, decide_eq_false_iff_not, beq_eq_false_iff_ne,
      UInt8.not_lt] at hplain
  · exact IsUtf8.flatMap fun t ht => Token.isUtf8_row (hnamed t ht)

/-- A string over two lines that holds a tab, a double quote, a backslash, a stray byte, a delete
and a blank that is not printable, between a number and a semicolon. -/
def tabulatedText : Text :=
  [0x37, 0x27, 0x09, 0x0A, 0x22, 0x5C, 0xFF, 0x7F, 0xC2, 0xA0, 0x27, 0x3B]

/-- The tokens of `tabulatedText`. -/
def tabulatedTokens : List Token :=
  [⟨.number, utf8 "7", ⟨1, 1⟩⟩,
    ⟨.string, [0x27, 0x09, 0x0A, 0x22, 0x5C, 0xFF, 0x7F, 0xC2, 0xA0, 0x27], ⟨1, 2⟩⟩,
    ⟨.semicolon, utf8 ";", ⟨2, 7⟩⟩]

/-- The string takes one line of the table, in which all that could be mistaken is escaped. -/
theorem render_tabulatedText :
    tokenize tabulatedText = .ok tabulatedTokens ∧
      ∀ outline, ∃ table, Format.tokens.render outline (utf8 "-") tabulatedText = (.ok table, []) ∧
        table = utf8 "1:1\tNumber\t\"7\"\n" ++
          utf8 "1:2\tString\t\"'\\t\\n\\\"\\\\\\xff\\x7f\\u00a0'\"\n" ++
          utf8 "2:7\tSemicolon\t\";\"\n" ∧
        table.count 0x0A = 3 ∧ tokensOfTable? table = some tabulatedTokens := by
  have htokens : tokenize tabulatedText = .ok tabulatedTokens := by decide +kernel
  refine ⟨htokens, fun outline => ?_⟩
  obtain ⟨table, hrender, hcount, -, -, -, -, hread⟩ := render_tokens htokens outline (utf8 "-")
  have htable : Format.tokens.render outline (utf8 "-") tabulatedText =
      (.ok (tokenTable tabulatedTokens), []) := by
    rw [Format.render, if_pos rfl, htokens]
  obtain rfl : tokenTable tabulatedTokens = table := by
    rw [htable] at hrender
    exact Except.ok.inj (Prod.mk.inj hrender).1
  exact ⟨_, hrender, by decide +kernel, hcount, hread⟩

end ExprLang
