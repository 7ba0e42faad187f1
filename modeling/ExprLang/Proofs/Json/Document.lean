import ExprLang.Json
import ExprLang.Proofs.Number.ReadBack
import ExprLang.Proofs.Text.Quoting

/-!
# Reading JSON documents

A document is what a JSON text says: strings are read as characters, numbers are kept as numerals.
The reader follows the JSON standard, all escapes included.  It first cuts a text into lexemes, which
are brackets, commas, colons and scalars with insignificant blanks between them (`lexemes?`), and then
puts these together.  What is still open around a value is a stack of frames (`Frame`): `value?` reads
a value inside of them, `resume?` goes on behind it.

There is one lemma for each kind of lexeme that says how it is cut off in front of a rest: blanks,
punctuation, words up to their end (`lexemes?_word`), and strings, which are read back from their
escaped form (`Json.lexemes?_quote`).  The numbers of every layout are numerals of JSON
(`isNumeral_text`).
-/

namespace ExprLang

/-- What a JSON text says. -/
inductive Document where
  | null
  | bool (value : Bool)
  | number (numeral : Text)
  | string (value : List Char)
  | array (items : List Document)
  | object (members : List (List Char × Document))

namespace Document

/-! ## Numerals -/

/-- A text without the sign at its front. -/
def dropSign : Text → Text
  | 0x2B :: t => t
  | 0x2D :: t => t
  | t => t

/-- A text without the minus sign at its front. -/
def dropMinus : Text → Text
  | 0x2D :: t => t
  | t => t

/-- An exponent, or nothing. -/
def isExponentPart : Text → Bool
  | [] => true
  | b :: t => (b == 0x65 || b == 0x45) && dropSign t ≠ [] && (dropSign t).all isDigit

/-- A point with digits behind it and an exponent, each of which may be left out. -/
def isFractionPart : Text → Bool
  | 0x2E :: t => t.takeWhile isDigit ≠ [] && isExponentPart (t.dropWhile isDigit)
  | t => isExponentPart t

/-- A numeral of JSON: an optional minus sign, digits without a superfluous zero, and the other
parts. -/
def isNumeral (t : Text) : Bool :=
  let whole := (dropMinus t).takeWhile isDigit
  whole ≠ [] && (whole.head? ≠ some 0x30 || whole = [0x30]) &&
    isFractionPart ((dropMinus t).dropWhile isDigit)

/-! ## Strings -/

/-- The character that two surrogates stand for, the second of which is escaped at the front of a
text, and the text behind it. -/
def readPair? (high : ℕ) : Text → Option (Char × Text)
  | 0x5C :: 0x75 :: t =>
    (readCode? 16 4 t).bind fun (low, r) =>
      if 0xD800 ≤ high && high < 0xDC00 && 0xDC00 ≤ low && low < 0xE000 then
        (charOfCode? (0x10000 + 0x400 * (high - 0xD800) + (low - 0xDC00))).map fun c => (c, r)
      else none
  | _ => none

/-- The character that the code behind a letter stands for, and the text behind it.  A surrogate
without its partner is replaced. -/
def readEscape? (letter : Char) (t : Text) : Option (Char × Text) :=
  if letter = 'u' then
    (readCode? 16 4 t).map fun (n, r) =>
      (readPair? n r).getD ((charOfCode? n).getD replacementChar, r)
  else none

lemma length_le_of_readPair? {high : ℕ} {t r : Text} {c : Char}
    (h : readPair? high t = some (c, r)) : r.length ≤ t.length := by
  unfold readPair? at h
  split at h
  · obtain ⟨⟨low, u⟩, hcode, hpair⟩ := Option.bind_eq_some_iff.1 h
    have hle := length_le_of_readCode? hcode
    dsimp only at hpair
    split_ifs at hpair
    obtain ⟨c', -, heq⟩ := Option.map_eq_some_iff.1 hpair
    obtain ⟨-, rfl⟩ := Prod.mk.inj heq
    rw [List.length_cons, List.length_cons]
    omega
  · cases h

lemma length_le_of_readEscape? {letter : Char} {t r : Text} {c : Char}
    (h : readEscape? letter t = some (c, r)) : r.length ≤ t.length := by
  unfold readEscape? at h
  split_ifs at h
  obtain ⟨⟨n, u⟩, hcode, hchar⟩ := Option.map_eq_some_iff.1 h
  have hle := length_le_of_readCode? hcode
  dsimp only at hchar
  cases hpair : readPair? n u with
  | none =>
    rw [hpair] at hchar
    obtain ⟨-, rfl⟩ := Prod.mk.inj hchar
    exact hle
  | some p =>
    rw [hpair] at hchar
    obtain rfl : p = (c, r) := hchar
    exact (length_le_of_readPair? hpair).trans hle

/-- What stands in a string.  Controls have to be escaped. -/
def stringForm : LiteralForm Char where
  letters :=
    [('"', '"'), ('\\', '\\'), ('/', '/'), ('b', '\x08'), ('f', '\x0c'), ('n', '\n'), ('r', '\r'),
      ('t', '\t')]
  code? := readEscape?
  self? c := if c = '"' || c.toNat < 0x20 then none else some c
  length_le := length_le_of_readEscape?
  self?_quote := rfl

/-! ## Lexemes -/

/-- A lexeme of a JSON text. -/
inductive Lexeme where
  | openArray
  | closeArray
  | openObject
  | closeObject
  | colon
  | comma
  | scalar (value : Document)

/-- A blank between lexemes. -/
def isSpace (b : UInt8) : Bool := b == 0x20 || b == 0x09 || b == 0x0A || b == 0x0D

/-- A bracket, a comma or a colon. -/
def punctuation? (b : UInt8) : Option Lexeme :=
  if b = 0x5B then some .openArray
  else if b = 0x5D then some .closeArray
  else if b = 0x7B then some .openObject
  else if b = 0x7D then some .closeObject
  else if b = 0x3A then some .colon
  else if b = 0x2C then some .comma
  else none

/-- The bytes of names and numerals. -/
def isWordByte (b : UInt8) : Bool :=
  (0x61 ≤ b && b ≤ 0x7A) || isDigit b || b == 0x2B || b == 0x2D || b == 0x2E || b == 0x45

/-- What a name or a numeral says. -/
def ofWord? (t : Text) : Option Document :=
  if t = utf8 "null" then some .null
  else if t = utf8 "true" then some (.bool true)
  else if t = utf8 "false" then some (.bool false)
  else if isNumeral t then some (.number t)
  else none

/-- The lexeme at the front of a text, and the text behind it. -/
def lexeme? : Text → Option (Lexeme × Text)
  | [] => none
  | b :: t =>
    match punctuation? b with
    | some l => some (l, t)
    | none =>
      if b = 0x22 then (stringForm.read? t).map fun (cs, r) => (.scalar (.string cs), r)
      else
        (ofWord? ((b :: t).takeWhile isWordByte)).map fun d =>
          (.scalar d, (b :: t).dropWhile isWordByte)

/-- What is behind a lexeme is shorter. -/
lemma length_lt_of_lexeme? {t r : Text} {l : Lexeme} (h : lexeme? t = some (l, r)) :
    r.length < t.length := by
  unfold lexeme? at h
  split at h
  · cases h
  · next b u =>
    split at h
    · obtain ⟨-, rfl⟩ := Prod.mk.inj (Option.some.inj h)
      exact Nat.lt_succ_self _
    · split_ifs at h
      · obtain ⟨⟨cs, r'⟩, hread, heq⟩ := Option.map_eq_some_iff.1 h
        obtain ⟨-, rfl⟩ := Prod.mk.inj heq
        exact (LiteralForm.length_lt_of_read? hread).trans (Nat.lt_succ_self _)
      · -- a word has at least one byte
        obtain ⟨d, hword, heq⟩ := Option.map_eq_some_iff.1 h
        obtain ⟨-, rfl⟩ := Prod.mk.inj heq
        have hb : isWordByte b = true := by
          by_contra hb
          rw [List.takeWhile_cons_of_neg hb] at hword
          cases hword
        rw [List.dropWhile_cons_of_pos hb]
        exact Nat.lt_succ_of_le (List.dropWhile_sublist _).length_le

/-- The lexemes of a text. -/
def lexemes? (t : Text) : Option (List Lexeme) :=
  match t with
  | [] => some []
  | b :: u =>
    if isSpace b then lexemes? u
    else
      match _h : lexeme? (b :: u) with
      | some (l, r) => (lexemes? r).map (l :: ·)
      | none => none
  termination_by t.length
  decreasing_by
    · exact Nat.lt_succ_self _
    · exact length_lt_of_lexeme? _h

/-! ## Values -/

/-- An array or object that is still open around a value, with what it holds so far. -/
inductive Frame where
  | array (items : List Document)
  | object (members : List (List Char × Document)) (key : List Char)

mutual

/-- The document whose remaining lexemes begin with a value. -/
def value? (stack : List Frame) : List Lexeme → Option Document
  | .scalar d :: ls => resume? stack d ls
  | .openArray :: .closeArray :: ls => resume? stack (.array []) ls
  | .openArray :: ls => value? (.array [] :: stack) ls
  | .openObject :: .closeObject :: ls => resume? stack (.object []) ls
  | .openObject :: .scalar (.string key) :: .colon :: ls => value? (.object [] key :: stack) ls
  | _ => none

/-- The document whose remaining lexemes stand behind a value. -/
def resume? (stack : List Frame) (d : Document) : List Lexeme → Option Document
  | [] =>
    match stack with
    | [] => some d
    | _ => none
  | .comma :: ls =>
    match stack, ls with
    | .array items :: stack, ls => value? (.array (items ++ [d]) :: stack) ls
    | .object members key :: stack, .scalar (.string key') :: .colon :: ls =>
      value? (.object (members ++ [(key, d)]) key' :: stack) ls
    | _, _ => none
  | .closeArray :: ls =>
    match stack with
    | .array items :: stack => resume? stack (.array (items ++ [d])) ls
    | _ => none
  | .closeObject :: ls =>
    match stack with
    | .object members key :: stack => resume? stack (.object (members ++ [(key, d)])) ls
    | _ => none
  | _ => none

end

/-- The document that a text holds, and nothing else. -/
def read? (t : Text) : Option Document := (lexemes? t).bind (value? [])

/-! ## Cutting lexemes off -/

/-- The bytes of words are neither blanks nor quotes nor punctuation. -/
lemma of_isWordByte {b : UInt8} (h : isWordByte b) :
    isSpace b = false ∧ punctuation? b = none ∧ b ≠ 0x22 := by
  have hne {c : UInt8} (hc : isWordByte c = false) : b ≠ c := by
    rintro rfl
    rw [hc] at h
    cases h
  refine ⟨?_, ?_, hne rfl⟩
  · simp only [isSpace, Bool.or_eq_false_iff, beq_eq_false_iff_ne]
    exact ⟨⟨⟨hne rfl, hne rfl⟩, hne rfl⟩, hne rfl⟩
  · simp only [punctuation?, if_neg (hne (c := 0x5B) rfl), if_neg (hne (c := 0x5D) rfl),
      if_neg (hne (c := 0x7B) rfl), if_neg (hne (c := 0x7D) rfl), if_neg (hne (c := 0x3A) rfl),
      if_neg (hne (c := 0x2C) rfl)]

/-- No blank belongs to a word. -/
lemma isWordByte_of_isSpace {b : UInt8} (h : isSpace b) : isWordByte b = false := by
  by_contra hword
  have hspace := (of_isWordByte (Bool.not_eq_false _ ▸ hword)).1
  rw [h] at hspace
  cases hspace

/-- Blanks are passed over. -/
lemma lexemes?_append_of_isSpace {t : Text} (h : ∀ b ∈ t, isSpace b) (r : Text) :
    lexemes? (t ++ r) = lexemes? r := by
  induction t with
  | nil => rfl
  | cons b t ih =>
    rw [List.cons_append, lexemes?, if_pos (h b (by simp))]
    exact ih fun b' hb' => h b' (by simp [hb'])

/-- A lexeme that does not begin with a blank is cut off. -/
lemma lexemes?_of_lexeme? {b : UInt8} {t r : Text} {l : Lexeme} (hb : isSpace b = false)
    (h : lexeme? (b :: t) = some (l, r)) : lexemes? (b :: t) = (lexemes? r).map (l :: ·) := by
  rw [lexemes?, hb, if_neg Bool.false_ne_true]
  split
  · next h' =>
    rw [h] at h'
    obtain ⟨rfl, rfl⟩ := Prod.mk.inj (Option.some.inj h')
    rfl
  · next h' =>
    rw [h] at h'
    cases h'

/-- Punctuation is cut off. -/
lemma lexemes?_punctuation {b : UInt8} {l : Lexeme} (hb : isSpace b = false)
    (h : punctuation? b = some l) (r : Text) :
    lexemes? (b :: r) = (lexemes? r).map (l :: ·) := by
  refine lexemes?_of_lexeme? hb ?_
  rw [lexeme?, h]

/-- The text does not go on with a word. -/
def EndsWord (r : Text) : Prop := ∀ b ∈ r.head?, isWordByte b = false

/-- A word is cut off where it ends. -/
lemma lexemes?_word {w r : Text} {d : Document} (hw : ∀ b ∈ w, isWordByte b) (hr : EndsWord r)
    (hd : ofWord? w = some d) : lexemes? (w ++ r) = (lexemes? r).map (.scalar d :: ·) := by
  have hspan : (w ++ r).takeWhile isWordByte = w ∧ (w ++ r).dropWhile isWordByte = r := by
    rw [List.takeWhile_append_of_pos hw, List.dropWhile_append_of_pos hw]
    cases r with
    | nil => exact ⟨List.append_nil w, rfl⟩
    | cons b r =>
      have hb := hr b rfl
      rw [List.takeWhile_cons, List.dropWhile_cons, hb]
      exact ⟨List.append_nil w, rfl⟩
  cases w with
  | nil => cases hd
  | cons b w =>
    obtain ⟨hspace, hpunctuation, hquote⟩ := of_isWordByte (hw b (by simp))
    rw [List.cons_append] at hspan ⊢
    refine lexemes?_of_lexeme? hspace ?_
    rw [lexeme?, hpunctuation]
    simp only [if_neg hquote, hspan.1, hspan.2, hd, Option.map_some]

lemma isWordByte_of_isDigit {b : UInt8} (h : isDigit b) : isWordByte b := by
  simp [isWordByte, h]

/-- The bytes of an exponent belong to words. -/
lemma isWordByte_of_isExponentPart {t : Text} (h : isExponentPart t) :
    ∀ b ∈ t, isWordByte b := by
  cases t with
  | nil => simp
  | cons mark t =>
    simp only [isExponentPart, Bool.and_eq_true, Bool.or_eq_true, beq_iff_eq, List.all_eq_true] at h
    obtain ⟨⟨hmark, -⟩, hdigits⟩ := h
    have htail : ∀ b ∈ t, isWordByte b := by
      intro b hb
      unfold dropSign at hdigits
      split at hdigits
      · rcases List.mem_cons.1 hb with rfl | hb
        · rfl
        · exact isWordByte_of_isDigit (hdigits b hb)
      · rcases List.mem_cons.1 hb with rfl | hb
        · rfl
        · exact isWordByte_of_isDigit (hdigits b hb)
      · exact isWordByte_of_isDigit (hdigits b hb)
    intro b hb
    rcases List.mem_cons.1 hb with rfl | hb
    · rcases hmark with rfl | rfl <;> rfl
    · exact htail b hb

/-- Digits and what follows them belong to words if that does. -/
lemma isWordByte_of_span {t : Text} (h : ∀ b ∈ t.dropWhile isDigit, isWordByte b) :
    ∀ b ∈ t, isWordByte b := by
  intro b hb
  rw [← List.takeWhile_append_dropWhile (p := isDigit) (l := t), List.mem_append] at hb
  rcases hb with hb | hb
  · exact isWordByte_of_isDigit (List.mem_takeWhile_imp hb)
  · exact h b hb

/-- The bytes behind the whole digits belong to words. -/
lemma isWordByte_of_isFractionPart {t : Text} (h : isFractionPart t) :
    ∀ b ∈ t, isWordByte b := by
  unfold isFractionPart at h
  split at h
  · next u =>
    have hword := isWordByte_of_span (isWordByte_of_isExponentPart (Bool.and_eq_true_iff.1 h).2)
    intro b hb
    rcases List.mem_cons.1 hb with rfl | hb
    · rfl
    · exact hword b hb
  · exact isWordByte_of_isExponentPart h

/-- A numeral is a word. -/
lemma isWordByte_of_isNumeral {t : Text} (h : isNumeral t) : ∀ b ∈ t, isWordByte b := by
  simp only [isNumeral] at h
  have hword := isWordByte_of_span (isWordByte_of_isFractionPart (Bool.and_eq_true_iff.1 h).2)
  unfold dropMinus at hword
  split at hword
  · intro b hb
    rcases List.mem_cons.1 hb with rfl | hb
    · rfl
    · exact hword b hb
  · exact hword

/-- A numeral says a number. -/
lemma ofWord?_of_isNumeral {t : Text} (h : isNumeral t) : ofWord? t = some (.number t) := by
  have hne {u : Text} (hu : isNumeral u = false) : t ≠ u := by
    rintro rfl
    rw [hu] at h
    cases h
  rw [ofWord?, if_neg (hne (by decide)), if_neg (hne (by decide)), if_neg (hne (by decide)), if_pos h]

/-- The exponent of a spelling. -/
lemma isExponentPart_exponentChars (s : Numeral.Spelling) :
    isExponentPart (Text.ofChars s.exponentChars) := by
  rw [Numeral.Spelling.exponentChars]
  cases h : s.exponent with
  | none => rfl
  | some e =>
    obtain ⟨negative, digits⟩ := e
    have hrun := isDigitRun_ofChars (s.exponent_ne_nil _ h) (s.exponent_digit _ h)
    have hsign : dropSign (Text.ofChars ((if negative then '-' else '+') :: digits)) =
        Text.ofChars digits := by
      cases negative <;> rfl
    have htext : Text.ofChars ('e' :: (if negative then '-' else '+') :: digits) =
        0x65 :: Text.ofChars ((if negative then '-' else '+') :: digits) := rfl
    simp only [htext, isExponentPart, hsign]
    simpa [hrun.ne_nil] using hrun.digit

/-- A text that begins with a digit has no sign. -/
lemma dropMinus_of_isDigit {b : UInt8} (hb : isDigit b) (t : Text) : dropMinus (b :: t) = b :: t := by
  unfold dropMinus
  split
  · next h =>
    rw [(List.cons.inj h).1] at hb
    cases hb
  · rfl

/-- The whole digits of a spelling have no superfluous zero. -/
lemma head?_whole (s : Numeral.Spelling) : (Text.ofChars s.whole).head? ≠ some 0x30 ∨
    Text.ofChars s.whole = [0x30] := by
  by_cases hzero : s.whole.head? = some '0'
  · rw [s.whole_zero hzero]
    exact .inr rfl
  · left
    obtain ⟨c, cs, hcs⟩ := List.exists_cons_of_ne_nil s.whole_ne_nil
    obtain ⟨b, hb, hnat⟩ := exists_utf8EncodeChar_of_isDigit (s.whole_digit c (by simp [hcs]))
    rw [hcs, Text.ofChars_cons, hb]
    rw [hcs] at hzero
    intro hhead
    obtain rfl : b = 0x30 := Option.some.inj hhead
    obtain rfl : c = '0' := Char.toNat_inj.1 hnat.symm
    exact hzero rfl

/-- What stands behind the whole digits of a spelling. -/
lemma isFractionPart_of_spelling (s : Numeral.Spelling) :
    isFractionPart ((if s.fraction = [] then [] else 0x2E :: Text.ofChars s.fraction) ++
      Text.ofChars s.exponentChars) := by
  have hexponent := isExponentPart_exponentChars s
  split_ifs with hnil
  · obtain ⟨hempty, -⟩ | ⟨t, ht, -⟩ := s.exponent_cases
    · rw [hempty]
      rfl
    · rw [ht] at hexponent ⊢
      exact hexponent
  · have hrun := isDigitRun_ofChars hnil s.fraction_digit
    obtain ⟨htake, hdrop⟩ := s.span_exponent hrun.digit
    rw [List.cons_append, isFractionPart, htake, hdrop, hexponent]
    simp [hrun.ne_nil]

/-- A spelling with its sign is a numeral of JSON. -/
lemma isNumeral_of_spelling (s : Numeral.Spelling) (negative : Bool) :
    isNumeral (Text.ofChars ((if negative then ['-'] else []) ++ s.chars)) := by
  have hwhole := isDigitRun_ofChars s.whole_ne_nil s.whole_digit
  have hsign : dropMinus (Text.ofChars ((if negative then ['-'] else []) ++ s.chars)) =
      Text.ofChars s.chars := by
    cases negative with
    | true => rfl
    | false =>
      obtain ⟨b, t, ht, hb⟩ := s.exists_ofChars_eq_cons
      exact (congrArg dropMinus ht).trans ((dropMinus_of_isDigit hb t).trans ht.symm)
  obtain ⟨htake, hdrop⟩ := s.span_whole
  simp only [isNumeral, hsign, htake, hdrop, isFractionPart_of_spelling]
  simpa [hwhole.ne_nil, or_iff_not_imp_left] using head?_whole s

/-- In every layout a number is a numeral of JSON. -/
lemma isNumeral_text (l : Layout) (negative : Bool) (m : Magnitude) :
    isNumeral (l.text negative m) := by
  obtain ⟨s, hchars, -⟩ := l.exists_spelling_digits m
  rw [Layout.text, ← hchars]
  exact isNumeral_of_spelling s negative

end Document

/-! ## Strings -/

namespace Json

open Document

/-- A letter stands for the character that it escapes. -/
lemma lookup_letters {c letter : Char} (h : letterEscapes.lookup c = some letter) :
    stringForm.letters.lookup letter = some c := by
  obtain ⟨l, r, hsplit, -⟩ := List.lookup_eq_some_iff.1 h
  have hall : ∀ e ∈ letterEscapes, stringForm.letters.lookup e.2 = some e.1 := by decide
  exact hall (c, letter) (by simp [hsplit])

/-- The code of a character is not the first of two surrogates. -/
lemma readPair?_toNat (c : Char) (r : Text) : readPair? c.toNat r = none := by
  have hvalid : c.toNat < 0xD800 ∨ 0xDFFF < c.toNat ∧ c.toNat < 0x110000 := c.valid
  unfold readPair?
  split
  · rw [Option.bind_eq_none_iff]
    rintro ⟨low, r⟩ -
    dsimp only
    rw [if_neg]
    simp only [Bool.and_eq_true, decide_eq_true_eq]
    omega
  · rfl

/-- A character is read back from its code. -/
lemma unit?_codeEscape {c : Char} (hc : c.toNat < 16 ^ 4) (r : Text) :
    stringForm.unit? (Text.ofChars (codeEscape c) ++ r) = some (c, r) := by
  have hletter : stringForm.letters.lookup 'u' = none := by decide
  have hform : stringForm.code? = readEscape? := rfl
  rw [codeEscape, Text.ofChars_append, List.append_assoc, LiteralForm.unit?_backslash_append]
  simp only [hletter, hform]
  rw [readEscape?, if_pos rfl, readCode?_hexDigits hc, Option.map_some]
  simp only [readPair?_toNat, charOfCode?_toNat, Option.getD_none, Option.getD_some]

/-- Each piece is read back from its escape, a stray byte as the replacement character. -/
lemma unit?_escape (x : Piece) (r : Text) :
    stringForm.unit? (Text.ofChars (escape x) ++ r) = some (x.scalar, r) := by
  have hself {c : Char} (hc : c ≠ '\\') (hself : stringForm.self? c = some c) :
      stringForm.unit? (Text.ofChars [c] ++ r) = some (c, r) := by
    rw [Text.ofChars_cons, Text.ofChars_nil, List.append_nil,
      LiteralForm.unit?_utf8EncodeChar_append hc, hself, Option.map_some]
  cases x with
  | stray b => exact hself (by decide) (by decide)
  | char c =>
    rw [escape, Piece.scalar]
    cases hletter : letterEscapes.lookup c with
    | some letter =>
      dsimp only
      rw [LiteralForm.unit?_backslash_append, lookup_letters hletter]
    | none =>
      have hne {c' : Char} (hc' : letterEscapes.lookup c' ≠ none) : c ≠ c' := by
        rintro rfl
        exact hc' hletter
      dsimp only
      split_ifs with hcode
      · refine unit?_codeEscape ?_ r
        simp only [Bool.or_eq_true, decide_eq_true_eq, List.contains_iff_mem, List.mem_cons,
          List.not_mem_nil, or_false] at hcode
        omega
      · have hquote : c ≠ '"' := hne (by decide)
        simp only [Bool.or_eq_true, decide_eq_true_eq, not_or] at hcode
        refine hself (hne (by decide)) ?_
        change (if c = '"' || c.toNat < 0x20 then none else some c) = some c
        rw [if_neg]
        simp [hquote, hcode.1]

/-- A quoted string is read back. -/
lemma lexemes?_quote (t r : Text) :
    lexemes? (quote escape t ++ r) = (lexemes? r).map (.scalar (.string (scalars t)) :: ·) := by
  have hquote : quote escape t ++ r =
      0x22 :: (Text.ofChars ((pieces t).flatMap escape) ++ 0x22 :: r) := by
    rw [quote, List.cons_append, Text.ofChars_cons, Text.ofChars_append, List.append_assoc,
      List.append_assoc]
    rfl
  have hread := LiteralForm.read?_flatMap unit?_escape (pieces t) r
  rw [hquote]
  refine lexemes?_of_lexeme? rfl ?_
  rw [lexeme?]
  simp only [punctuation?]
  simp [hread, scalars]

end Json

end ExprLang
