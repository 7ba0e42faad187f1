import ExprLang.Lexical.Error
import ExprLang.Proofs.Number.ReadBack
import ExprLang.Proofs.Run.TokenTable

/-!
# Messages of lexical errors

A message is one short line, whatever text it is about.  It holds the location, a few fixed words
and a quoted text, and none of these holds a control character.  The quoted text is the line at
which the error stands, as long as that has at most twenty pieces, which are its characters and
stray bytes (`Decodes`).  Of a longer line only the first twenty are shown, and as characters, so
that a stray byte among them becomes a replacement character; in a short line it is quoted as the
byte that it is.

No escape is longer than ten bytes (`Quoted.length_escape_le`), and no word is longer than twenty
digits, so every message fits into 270 bytes.  The main statement is `LexicalError.message_oneLine`.
-/

namespace ExprLang

/-! ## The length of a location -/

/-- A number below a power of ten has no more digits than the power has zeros. -/
lemma Text.length_ofNat_le {n k : ℕ} (hk : 0 < k) (h : n < 10 ^ k) : (ofNat n).length ≤ k := by
  have hdigit : ∀ c ∈ Nat.toDigits 10 n, c.isDigit := by
    intro c hc
    exact Nat.isDigit_of_mem_toDigits (by omega) le_rfl hc
  rw [ofNat, length_ofChars_of_isDigit hdigit]
  exact (Nat.length_toDigits_le_iff (by omega) hk).2 h

/-- A word has at most nineteen digits and a sign. -/
lemma Text.length_ofInt_le (w : Int64) : (ofInt w.toInt).length ≤ 20 := by
  have hlower := w.le_toInt
  have hupper := w.toInt_lt
  generalize w.toInt = i at *
  cases i with
  | ofNat n =>
    have hn : n < 10 ^ 19 := by
      simp only [Int.ofNat_eq_natCast] at hupper
      omega
    exact (length_ofNat_le (by omega) hn).trans (by omega)
  | negSucc n =>
    have hn : n + 1 < 10 ^ 19 := by
      rw [Int.negSucc_eq] at hlower
      omega
    have hlength := length_ofNat_le (by omega) hn
    have hsign : ofInt (.negSucc n) = 0x2D :: ofNat (n + 1) := rfl
    rw [hsign, List.length_cons]
    omega

/-- A location is written as two words and a colon. -/
lemma Location.length_text_le (l : Location) : l.text.length ≤ 41 := by
  have hline := Text.length_ofInt_le l.line
  have hcolumn := Text.length_ofInt_le l.column
  have hcolon : (utf8 ":").length = 1 := rfl
  rw [text, List.length_append, List.length_append]
  omega

/-! ## The length of a quoted text -/

namespace Quoted

/-- The longest escape is a backslash, a letter and eight digits. -/
lemma length_escape_le (x : Piece) : (Text.ofChars (escape x)).length ≤ 10 := by
  have hcode {width n : ℕ} {letter : Char} (hletter : (String.utf8EncodeChar letter).length = 1)
      (hwidth : width ≤ 8) :
      (Text.ofChars (['\\', letter] ++ hexDigits width n)).length ≤ 10 := by
    have hlength := (hexDigits_spec width n).1
    have hbackslash : (String.utf8EncodeChar '\\').length = 1 := rfl
    simp only [List.cons_append, List.nil_append, Text.ofChars_cons, List.length_append]
    omega
  cases x with
  | stray b => exact hcode rfl (by omega)
  | char c =>
    cases hletter : letterEscapes.lookup c with
    | some letter =>
      obtain ⟨l, r, hsplit, -⟩ := List.lookup_eq_some_iff.1 hletter
      have hall : ∀ e ∈ letterEscapes, (String.utf8EncodeChar e.2).length = 1 := by decide
      have hone := hall (c, letter) (by simp [hsplit])
      have hescape := hcode (n := 0) hone (Nat.zero_le 8)
      simpa [escape, hletter, hexDigits] using hescape
    | none =>
      simp only [escape, hletter]
      split_ifs
      · exact hcode rfl (by omega)
      · have hsize := Char.utf8Size_le_four c
        rw [Text.ofChars_cons, Text.ofChars_nil, List.append_nil, String.length_utf8EncodeChar]
        omega
      · exact hcode rfl (by omega)
      · exact hcode rfl (by omega)

/-- So the escapes of some pieces have ten bytes for each at most. -/
lemma length_flatMap_escape_le (xs : List Piece) :
    (Text.ofChars (xs.flatMap escape)).length ≤ 10 * xs.length := by
  induction xs with
  | nil => rfl
  | cons x xs ih =>
    have hx := length_escape_le x
    rw [List.flatMap_cons, Text.ofChars_append, List.length_append, List.length_cons]
    omega

end Quoted

/-! ## The pieces of a text -/

/-- From left to right, a text is made of encoded characters, and of single stray bytes where none
stands. -/
inductive Decodes : Text → List Piece → Prop
  | nil : Decodes [] []
  | char {r : Text} {ps : List Piece} (c : Char) :
      Decodes r ps → Decodes (String.utf8EncodeChar c ++ r) (.char c :: ps)
  | stray {b : UInt8} {r : Text} {ps : List Piece} :
      (∀ c, ¬ String.utf8EncodeChar c <+: b :: r) → Decodes r ps → Decodes (b :: r) (.stray b :: ps)

/-- No character stands at the front of a text exactly if none is found there. -/
lemma firstChar?_eq_none_iff {t : Text} :
    firstChar? t = none ↔ ∀ c, ¬ String.utf8EncodeChar c <+: t := by
  rw [Option.eq_none_iff_forall_ne_some]
  apply forall_congr'
  intro c
  rw [Ne, firstChar?_eq_some_iff, List.IsPrefix]
  simp only [eq_comm]

/-- A text is made of its pieces and of nothing else. -/
lemma decodes_iff {t : Text} {ps : List Piece} : Decodes t ps ↔ ps = pieces t := by
  constructor
  · intro h
    induction h with
    | nil => exact pieces_nil.symm
    | char c _ ih => rw [pieces_utf8EncodeChar_append, ih]
    | stray hb _ ih => rw [pieces_cons_of_none (firstChar?_eq_none_iff.2 hb), ih]
  · rintro rfl
    induction t using piece_induction with
    | nil =>
      rw [pieces_nil]
      exact .nil
    | char c r ih =>
      rw [pieces_utf8EncodeChar_append]
      exact .char c ih
    | stray b t hnone ih =>
      rw [pieces_cons_of_none hnone]
      exact .stray (firstChar?_eq_none_iff.1 hnone) ih

namespace LexicalError

/-! ## The excerpt -/

/-- A text up to its first carriage return or line feed, or all of it. -/
structure IsFirstLine (t line : Text) : Prop where
  exists_append : ∃ behind, line ++ behind = t ∧ ∀ b, behind.head? = some b → isLineEnd b
  not_lineEnd : ∀ b ∈ line, isLineEnd b = false

/-- What a message shows of a text: its first line, or the first twenty characters of that and three
dots. -/
structure IsExcerpt (t line : Text) (ps : List Piece) (shown : Text) : Prop where
  isFirstLine : IsFirstLine t line
  decodes : Decodes line ps
  /-- A short line is shown byte for byte. -/
  of_le : ps.length ≤ 20 → shown = line
  /-- A longer one is cut, with a replacement character for each stray byte. -/
  of_lt : 20 < ps.length → shown = Text.ofChars ((ps.take 20).map Piece.scalar) ++ utf8 "..."

/-- The excerpt is what a message has to show. -/
lemma exists_isExcerpt (t : Text) : ∃ line ps, IsExcerpt t line ps (excerpt t) := by
  obtain ⟨happend, hline, hbehind⟩ :=
    takeWhile_dropWhile_iff (p := (!isLineEnd ·)) (t := t) |>.1 ⟨rfl, rfl⟩
  refine ⟨t.takeWhile (!isLineEnd ·), pieces (t.takeWhile (!isLineEnd ·)),
    ⟨⟨_, happend, by simpa using hbehind⟩, by simpa using hline⟩, decodes_iff.2 rfl, ?_, ?_⟩
  · intro hle
    rw [excerpt, excerptLimit, if_pos hle]
  · intro hlt
    rw [excerpt, excerptLimit, if_neg hlt.not_ge, scalars, List.map_take]

/-- An excerpt is quoted in at most 205 bytes: twenty escapes, three dots and two quotes. -/
lemma IsExcerpt.length_quoted_le {t line shown : Text} {ps : List Piece}
    (h : IsExcerpt t line ps shown) : (quoted shown).length ≤ 205 := by
  suffices hescaped : (Text.ofChars ((pieces shown).flatMap Quoted.escape)).length ≤ 203 by
    rw [quoted_eq, List.length_cons, List.length_append, List.length_singleton]
    omega
  rcases Nat.lt_or_ge 20 ps.length with hlt | hle
  · have hdots : Text.ofChars (("...".toList.map Piece.char).flatMap Quoted.escape) =
        utf8 "..." := by
      decide
    have hcut := Quoted.length_flatMap_escape_le (((ps.take 20).map Piece.scalar).map Piece.char)
    rw [List.length_map, List.length_map, List.length_take] at hcut
    have hthree : (utf8 "...").length = 3 := rfl
    rw [h.of_lt hlt, utf8, ← Text.ofChars_append, pieces_ofChars, List.map_append,
      List.flatMap_append, Text.ofChars_append, hdots, List.length_append]
    omega
  · have hshort := Quoted.length_flatMap_escape_le ps
    rw [h.of_le hle, ← decodes_iff.1 h.decodes]
    omega

/-! ## The message -/

/-- The message of a lexical error is a line of at most 270 bytes, which is encoded in UTF-8 and has
no control character: the location, from which it is read back, fixed words, and a quoted text.
Unquoted, that is the line at which the error stands, byte for byte, if it has at most twenty
pieces.  Otherwise it is the first twenty of them, with a replacement character for each stray byte,
and three dots. -/
theorem message_oneLine (e : LexicalError) :
    IsUtf8 e.message ∧ (∀ b ∈ e.message, isControl b = false) ∧ e.message.length ≤ 270 ∧
      Location.ofText? e.loc.text = some e.loc ∧
      ∃ q shown line ps, e.message = e.loc.text ++ utf8 ": unexpected token near " ++ q ∧
        q = quoted shown ∧ unquote? q = some shown ∧ IsExcerpt e.near line ps shown := by
  have hwords : (utf8 ": unexpected token near ").any isControl = false := rfl
  have hlength : (utf8 ": unexpected token near ").length = 24 := rfl
  obtain ⟨line, ps, hexcerpt⟩ := exists_isExcerpt e.near
  refine ⟨?_, ?_, ?_, e.loc.ofText?_text, _, _, line, ps, rfl, rfl, unquote?_quoted _, hexcerpt⟩
  · exact (e.loc.isUtf8_text.append (isUtf8_utf8 _)).append (isUtf8_quoted _)
  · intro b hb
    rw [message, List.mem_append, List.mem_append] at hb
    rcases hb with (hb | hb) | hb
    · exact Location.isControl_of_mem_text hb
    · exact Bool.eq_false_of_not_eq_true (List.any_eq_false.1 hwords b hb)
    · exact isControl_of_mem_quoted hb
  · have hloc := e.loc.length_text_le
    have hquoted := hexcerpt.length_quoted_le
    rw [message, List.length_append, List.length_append]
    omega

/-- A stray byte stays what it is in a line of twenty pieces, and is replaced in a longer one. -/
example :
    excerpt ([0xFF] ++ utf8 "@234567890123456789\r\n;") = [0xFF] ++ utf8 "@234567890123456789" ∧
      excerpt ([0xFF] ++ utf8 "@2345678901234567890\n;") =
        utf8 "\uFFFD@234567890123456789..." := by
  decide +kernel

end LexicalError

end ExprLang
