import ExprLang.Proofs.Lexical.Position
import ExprLang.Proofs.Number.DigitRun
import ExprLang.Text.Quoted

/-!
# Reading quoted texts

A literal between double quotes is read character by character.  A backslash begins an escape: a
letter with a meaning of its own, or a letter and the digits of a code.  What the letters, the codes
and all other characters stand for is left open in a `LiteralForm`; `LiteralForm.read?` reads a
literal of a form from behind its opening quote through the closing one.

If a form undoes the escaping of single pieces, it undoes that of whole texts
(`LiteralForm.read?_flatMap`).  `Quoted.form` is the form of quoted texts.  Each piece is read back
from its escape (`Quoted.unit?_escape`), so a quoted text is read back byte by byte, whatever stands
behind it (`readQuoted?_quoted_append`) and by itself (`unquote?_quoted`).  A quoted text has no
control characters (`isControl_of_mem_quoted`) and is encoded in UTF-8 (`isUtf8_quoted`).
-/

namespace ExprLang

/-! ## Encoded texts -/

/-- The text is the encoding of a list of characters. -/
def IsUtf8 (t : Text) : Prop := ∃ cs, t = Text.ofChars cs

lemma isUtf8_ofChars (cs : List Char) : IsUtf8 (Text.ofChars cs) := ⟨cs, rfl⟩

lemma isUtf8_utf8 (s : String) : IsUtf8 (utf8 s) := ⟨s.toList, rfl⟩

/-- Encoded texts one after the other are encoded. -/
lemma IsUtf8.append {t u : Text} (ht : IsUtf8 t) (hu : IsUtf8 u) : IsUtf8 (t ++ u) := by
  obtain ⟨cs, rfl⟩ := ht
  obtain ⟨ds, rfl⟩ := hu
  exact ⟨cs ++ ds, (Text.ofChars_append cs ds).symm⟩

/-- A list of encoded texts is encoded as a whole. -/
lemma IsUtf8.flatMap {α : Type} {xs : List α} {f : α → Text} (h : ∀ x ∈ xs, IsUtf8 (f x)) :
    IsUtf8 (xs.flatMap f) := by
  induction xs with
  | nil => exact isUtf8_ofChars []
  | cons x xs ih =>
    rw [List.flatMap_cons]
    exact (h x (by simp)).append (ih fun y hy => h y (List.mem_cons_of_mem x hy))

/-- The pieces of encoded characters are these characters. -/
lemma pieces_ofChars (cs : List Char) : pieces (Text.ofChars cs) = cs.map .char := by
  induction cs with
  | nil => exact pieces_nil
  | cons c cs ih => rw [Text.ofChars_cons, pieces_utf8EncodeChar_append, ih, List.map_cons]

/-- A control character of ASCII. -/
def isControl (b : UInt8) : Bool := b < 0x20 || b == 0x7F

lemma isControl_eq_false_iff {b : UInt8} :
    isControl b = false ↔ 0x20 ≤ b.toNat ∧ b.toNat ≠ 0x7F := by
  simp [isControl, UInt8.lt_iff_toNat_lt, ← UInt8.toNat_inj]

/-- The encoding of characters other than controls has no control in it. -/
lemma isControl_of_mem_ofChars {cs : List Char} (h : ∀ c ∈ cs, 0x20 ≤ c.toNat ∧ c.toNat ≠ 0x7F)
    {b : UInt8} (hb : b ∈ Text.ofChars cs) : isControl b = false := by
  obtain ⟨c, hc, hbc⟩ := List.mem_flatMap.1 hb
  have hchar := h c hc
  have hbyte := toNat_of_mem_utf8EncodeChar hbc
  rw [isControl_eq_false_iff]
  omega

/-- The character at the front of a text and the text behind it. -/
def cutChar? (t : Text) : Option (Char × Text) :=
  (firstChar? t).map fun c => (c, t.drop c.utf8Size)

/-- An encoded character at the front is cut off, whatever follows. -/
@[simp] lemma cutChar?_utf8EncodeChar_append (c : Char) (r : Text) :
    cutChar? (String.utf8EncodeChar c ++ r) = some (c, r) := by
  have hfirst : firstChar? (String.utf8EncodeChar c ++ r) = some c :=
    firstChar?_eq_some_iff.2 ⟨r, rfl⟩
  rw [cutChar?, hfirst, Option.map_some, ← String.length_utf8EncodeChar, List.drop_left]

/-- What is behind a character is shorter. -/
lemma length_lt_of_cutChar? {t r : Text} {c : Char} (h : cutChar? t = some (c, r)) :
    r.length < t.length := by
  obtain ⟨c', hfirst, hcut⟩ := Option.map_eq_some_iff.1 h
  obtain ⟨rfl, rfl⟩ := Prod.mk.inj hcut
  obtain ⟨u, rfl⟩ := firstChar?_eq_some_iff.1 hfirst
  have hsize := Char.utf8Size_pos c'
  rw [List.length_drop, List.length_append, String.length_utf8EncodeChar]
  omega

/-! ## Codes -/

/-- The number that a given number of digits at the front of a text denote, and the text behind
them.  Letters among the digits may be of either case. -/
def readCode? (radix width : ℕ) (t : Text) : Option (ℕ × Text) :=
  let digits := (t.take width).map lowerAscii
  if digits.length = width ∧
      digits.all (fun b => Numeral.hexadecimal.isDigit b && Numeral.digitValue b < radix) then
    some (Numeral.digitsValue radix digits, t.drop width)
  else none

/-- What is behind a code is not longer. -/
lemma length_le_of_readCode? {radix width n : ℕ} {t r : Text}
    (h : readCode? radix width t = some (n, r)) : r.length ≤ t.length := by
  simp only [readCode?] at h
  split at h
  · obtain ⟨-, rfl⟩ := Prod.mk.inj (Option.some.inj h)
    exact (List.drop_sublist width t).length_le
  · cases h

/-- A hexadecimal digit is a byte with the value of the digit. -/
lemma exists_utf8EncodeChar_digitChar {d : ℕ} (hd : d < 16) :
    ∃ b, String.utf8EncodeChar (Nat.digitChar d) = [b] ∧ Numeral.hexadecimal.isDigit b ∧
      lowerAscii b = b ∧ Numeral.digitValue b = d := by
  have hall : ∀ d < 16, (String.utf8EncodeChar (Nat.digitChar d)).length = 1 ∧
      (String.utf8EncodeChar (Nat.digitChar d)).all fun b =>
        Numeral.hexadecimal.isDigit b && lowerAscii b == b && Numeral.digitValue b == d := by
    decide
  obtain ⟨hlength, hbyte⟩ := hall d hd
  obtain ⟨b, hb⟩ := List.length_eq_one_iff.1 hlength
  refine ⟨b, hb, ?_⟩
  simpa [hb, and_assoc] using hbyte

/-- Hexadecimal digits are as many bytes, which denote the number up to their places. -/
lemma hexDigits_spec (width n : ℕ) :
    (Text.ofChars (hexDigits width n)).length = width ∧
      (∀ b ∈ Text.ofChars (hexDigits width n),
        Numeral.hexadecimal.isDigit b ∧ lowerAscii b = b ∧ Numeral.digitValue b < 16) ∧
      Numeral.digitsValue 16 (Text.ofChars (hexDigits width n)) = n % 16 ^ width := by
  induction width generalizing n with
  | zero => simp [hexDigits, Nat.mod_one]
  | succ width ih =>
    obtain ⟨hlength, hbytes, hvalue⟩ := ih (n / 16)
    obtain ⟨b, hb, hdigit, hlower, hlast⟩ := exists_utf8EncodeChar_digitChar (Nat.mod_lt n (by omega))
    have hdigits : Text.ofChars (hexDigits (width + 1) n) =
        Text.ofChars (hexDigits width (n / 16)) ++ [b] := by
      simp [hexDigits, hb]
    have hone : Numeral.digitsValue 16 [b] = n % 16 := by
      rw [← hlast]
      simp [Numeral.digitsValue]
    rw [hdigits]
    refine ⟨by simp [hlength], ?_, ?_⟩
    · intro b' hb'
      rcases List.mem_append.1 hb' with hb' | hb'
      · exact hbytes b' hb'
      · obtain rfl := List.mem_singleton.1 hb'
        exact ⟨hdigit, hlower, by omega⟩
    · have hmod : n % (16 * 16 ^ width) = n % 16 + 16 * (n / 16 % 16 ^ width) := Nat.mod_mul
      rw [Numeral.digitsValue_append, hvalue, hone, List.length_singleton, Nat.pow_one,
        Nat.pow_succ', hmod]
      ring

/-- A number that has no more digits than asked for is read back from them. -/
lemma readCode?_hexDigits {width n : ℕ} (hn : n < 16 ^ width) (r : Text) :
    readCode? 16 width (Text.ofChars (hexDigits width n) ++ r) = some (n, r) := by
  obtain ⟨hlength, hbytes, hvalue⟩ := hexDigits_spec width n
  have htake : (Text.ofChars (hexDigits width n) ++ r).take width =
      Text.ofChars (hexDigits width n) := List.take_left' hlength
  have hlower : (Text.ofChars (hexDigits width n)).map lowerAscii =
      Text.ofChars (hexDigits width n) :=
    (List.map_congr_left fun b hb => (hbytes b hb).2.1).trans (List.map_id _)
  have hall : (Text.ofChars (hexDigits width n)).all
      (fun b => Numeral.hexadecimal.isDigit b && Numeral.digitValue b < 16) := by
    rw [List.all_eq_true]
    intro b hb
    simp [(hbytes b hb).1, (hbytes b hb).2.2]
  simp only [readCode?, htake, hlower, hlength, hall, hvalue, Nat.mod_eq_of_lt hn, and_self,
    ↓reduceIte, List.drop_left' hlength]

/-- The character with a given code, unless that is a surrogate or beyond the last character. -/
def charOfCode? (n : ℕ) : Option Char := if n.isValidChar then some (Char.ofNat n) else none

@[simp] lemma charOfCode?_toNat (c : Char) : charOfCode? c.toNat = some c := by
  have hvalid : c.toNat.isValidChar := c.valid
  rw [charOfCode?, if_pos hvalid, Char.ofNat_toNat]

/-! ## Literals -/

/-- What the characters and escapes of a literal stand for. -/
structure LiteralForm (α : Type) where
  /-- What a letter behind a backslash stands for. -/
  letters : List (Char × α)
  /-- What any other letter behind a backslash stands for together with the code that follows it, and
  the text behind the code. -/
  code? : Char → Text → Option (α × Text)
  /-- What a character stands for by itself. -/
  self? : Char → Option α
  /-- Reading a code goes on. -/
  length_le : ∀ {letter t a r}, code? letter t = some (a, r) → r.length ≤ t.length
  /-- A quote stands for nothing by itself. -/
  self?_quote : self? '"' = none

namespace LiteralForm

variable {α : Type} (form : LiteralForm α)

/-- What the escape behind a backslash stands for, and the text behind it. -/
def escape? (t : Text) : Option (α × Text) :=
  (cutChar? t).bind fun (letter, r) =>
    match form.letters.lookup letter with
    | some a => some (a, r)
    | none => form.code? letter r

/-- What the first character or escape of a text stands for, and the text behind it. -/
def unit? (t : Text) : Option (α × Text) :=
  (cutChar? t).bind fun (c, r) =>
    if c = '\\' then form.escape? r else (form.self? c).map fun a => (a, r)

/-- What is behind a character or an escape is shorter. -/
lemma length_lt_of_unit? {form : LiteralForm α} {t r : Text} {a : α}
    (h : form.unit? t = some (a, r)) : r.length < t.length := by
  obtain ⟨⟨c, u⟩, hcut, hunit⟩ := Option.bind_eq_some_iff.1 h
  have hlt := length_lt_of_cutChar? hcut
  dsimp only at hunit
  split at hunit
  · obtain ⟨⟨letter, v⟩, hletter, hescape⟩ := Option.bind_eq_some_iff.1 hunit
    have hlt' := length_lt_of_cutChar? hletter
    dsimp only at hescape
    split at hescape
    · obtain ⟨-, rfl⟩ := Prod.mk.inj (Option.some.inj hescape)
      omega
    · have hle := form.length_le hescape
      omega
  · obtain ⟨a', -, hself⟩ := Option.map_eq_some_iff.1 hunit
    obtain ⟨-, rfl⟩ := Prod.mk.inj hself
    exact hlt

/-- What the characters and escapes of a literal stand for, and the text behind its closing
quote. -/
def read? (t : Text) : Option (List α × Text) :=
  match _h : form.unit? t with
  | some (a, r) => (read? r).map fun (as, r') => (a :: as, r')
  | none =>
    match t with
    | 0x22 :: r => some ([], r)
    | _ => none
  termination_by t.length
  decreasing_by exact length_lt_of_unit? _h

variable {form}

lemma unit?_utf8EncodeChar_append {c : Char} (hc : c ≠ '\\') (r : Text) :
    form.unit? (String.utf8EncodeChar c ++ r) = (form.self? c).map fun a => (a, r) := by
  simp [unit?, hc]

lemma unit?_backslash_append (letter : Char) (r : Text) :
    form.unit? (Text.ofChars ['\\', letter] ++ r) =
      match form.letters.lookup letter with
      | some a => some (a, r)
      | none => form.code? letter r := by
  simp [unit?, escape?]

/-- A literal goes on behind each character or escape. -/
lemma read?_of_unit? {t r : Text} {a : α} (h : form.unit? t = some (a, r)) :
    form.read? t = (form.read? r).map fun (as, r') => (a :: as, r') := by
  rw [read?]
  split
  · next h' =>
    rw [h] at h'
    obtain ⟨rfl, rfl⟩ := Prod.mk.inj (Option.some.inj h')
    rfl
  · next h' =>
    rw [h] at h'
    cases h'

/-- A quote ends a literal. -/
lemma read?_quote (r : Text) : form.read? (0x22 :: r) = some ([], r) := by
  have hquote : form.unit? (0x22 :: r) = none := by
    have hunit : form.unit? (String.utf8EncodeChar '"' ++ r) = _ :=
      unit?_utf8EncodeChar_append (by decide) r
    rwa [form.self?_quote] at hunit
  rw [read?]
  split
  · next h =>
    rw [hquote] at h
    cases h
  · rfl

/-- What is behind a literal is shorter. -/
lemma length_lt_of_read? {t r : Text} {as : List α} (h : form.read? t = some (as, r)) :
    r.length < t.length := by
  fun_induction form.read? t generalizing as with
  | case1 t a u hunit ih =>
    obtain ⟨⟨as', r'⟩, hread, heq⟩ := Option.map_eq_some_iff.1 h
    obtain ⟨-, rfl⟩ := Prod.mk.inj heq
    exact (ih hread).trans (length_lt_of_unit? hunit)
  | case2 u hunit =>
    obtain ⟨-, rfl⟩ := Prod.mk.inj (Option.some.inj h)
    exact Nat.lt_succ_self _
  | case3 t hunit hquote => cases h

/-- A form that undoes the escaping of each piece undoes that of all of them. -/
lemma read?_flatMap {escape : Piece → List Char} {meaning : Piece → α}
    (h : ∀ x r, form.unit? (Text.ofChars (escape x) ++ r) = some (meaning x, r))
    (xs : List Piece) (r : Text) :
    form.read? (Text.ofChars (xs.flatMap escape) ++ 0x22 :: r) = some (xs.map meaning, r) := by
  induction xs with
  | nil => exact read?_quote r
  | cons x xs ih =>
    rw [List.flatMap_cons, Text.ofChars_append, List.append_assoc, read?_of_unit? (h x _), ih]
    rfl

end LiteralForm

/-! ## The form of quoted texts -/

namespace Quoted

/-- The encoding of the character whose code is written in a number of hexadecimal digits, and the
text behind them. -/
def readChar? (width : ℕ) (t : Text) : Option (Text × Text) :=
  (readCode? 16 width t).bind fun (n, r) =>
    (charOfCode? n).map fun c => (String.utf8EncodeChar c, r)

/-- The byte whose code is written in two digits behind given higher ones, and the text behind
them. -/
def readByte? (radix higher : ℕ) (t : Text) : Option (Text × Text) :=
  (readCode? radix 2 t).map fun (n, r) => ([UInt8.ofNat (higher + n)], r)

/-- The bytes that the code behind a letter stands for, and the text behind it: two hexadecimal
digits of a byte, four or eight of a character, or three octal digits of a byte, the first of which
takes the place of the letter. -/
def readEscape? (letter : Char) (t : Text) : Option (Text × Text) :=
  if letter = 'x' then readByte? 16 0 t
  else if letter = 'u' then readChar? 4 t
  else if letter = 'U' then readChar? 8 t
  else if '0' ≤ letter && letter ≤ '3' then readByte? 8 (64 * (letter.toNat - '0'.toNat)) t
  else none

lemma length_le_of_readChar? {width : ℕ} {t bytes r : Text}
    (h : readChar? width t = some (bytes, r)) : r.length ≤ t.length := by
  obtain ⟨⟨n, u⟩, hcode, hchar⟩ := Option.bind_eq_some_iff.1 h
  obtain ⟨c, -, heq⟩ := Option.map_eq_some_iff.1 hchar
  obtain ⟨-, rfl⟩ := Prod.mk.inj heq
  exact length_le_of_readCode? hcode

lemma length_le_of_readByte? {radix higher : ℕ} {t bytes r : Text}
    (h : readByte? radix higher t = some (bytes, r)) : r.length ≤ t.length := by
  obtain ⟨⟨n, u⟩, hcode, heq⟩ := Option.map_eq_some_iff.1 h
  obtain ⟨-, rfl⟩ := Prod.mk.inj heq
  exact length_le_of_readCode? hcode

lemma length_le_of_readEscape? {letter : Char} {t bytes r : Text}
    (h : readEscape? letter t = some (bytes, r)) : r.length ≤ t.length := by
  unfold readEscape? at h
  split_ifs at h
  · exact length_le_of_readByte? h
  · exact length_le_of_readChar? h
  · exact length_le_of_readChar? h
  · exact length_le_of_readByte? h

/-- What stands in a quoted text.  A line feed has to be escaped. -/
def form : LiteralForm Text where
  letters :=
    [('a', [0x07]), ('b', [0x08]), ('f', [0x0C]), ('n', [0x0A]), ('r', [0x0D]), ('t', [0x09]),
      ('v', [0x0B]), ('\\', [0x5C]), ('"', [0x22])]
  code? := readEscape?
  self? c := if c = '"' || c = '\n' then none else some (String.utf8EncodeChar c)
  length_le := length_le_of_readEscape?
  self?_quote := rfl

/-- A character of ASCII is the byte of its code. -/
lemma utf8EncodeChar_of_lt {c : Char} (h : c.toNat < 0x80) :
    String.utf8EncodeChar c = [UInt8.ofNat c.toNat] := by
  have hsize : c.utf8Size = 1 := by
    rw [Char.utf8Size_eq_one_iff, UInt32.le_iff_toNat_le, Char.toNat_val]
    exact Nat.le_of_lt_succ h
  rw [String.utf8EncodeChar_eq_singleton hsize]
  rfl

/-- A letter stands for the character that it escapes. -/
lemma lookup_letters {c letter : Char} (h : letterEscapes.lookup c = some letter) :
    form.letters.lookup letter = some (String.utf8EncodeChar c) := by
  obtain ⟨l, r, hsplit, -⟩ := List.lookup_eq_some_iff.1 h
  have hall : ∀ e ∈ letterEscapes,
      form.letters.lookup e.2 = some (String.utf8EncodeChar e.1) := by decide
  exact hall (c, letter) (by simp [hsplit])

/-- A byte is read back from its two hexadecimal digits. -/
lemma unit?_byte {n : ℕ} (hn : n < 16 ^ 2) (r : Text) :
    form.unit? (Text.ofChars (['\\', 'x'] ++ hexDigits 2 n) ++ r) = some ([UInt8.ofNat n], r) := by
  have hcode : form.code? 'x' = readByte? 16 0 := rfl
  have hletter : form.letters.lookup 'x' = none := rfl
  rw [Text.ofChars_append, List.append_assoc, LiteralForm.unit?_backslash_append, hletter]
  simp only [hcode, readByte?, readCode?_hexDigits hn, Option.map_some, Nat.zero_add]

/-- A character is read back from the hexadecimal digits of its code. -/
lemma unit?_char {letter : Char} {width : ℕ} (hletter : form.letters.lookup letter = none)
    (hcode : form.code? letter = readChar? width) {c : Char} (hc : c.toNat < 16 ^ width) (r : Text) :
    form.unit? (Text.ofChars (['\\', letter] ++ hexDigits width c.toNat) ++ r) =
      some (String.utf8EncodeChar c, r) := by
  rw [Text.ofChars_append, List.append_assoc, LiteralForm.unit?_backslash_append, hletter]
  simp only [hcode, readChar?, readCode?_hexDigits hc, Option.bind_some, charOfCode?_toNat,
    Option.map_some]

/-- The escape of a piece is read back as its bytes. -/
lemma unit?_escape (x : Piece) (r : Text) :
    form.unit? (Text.ofChars (escape x) ++ r) = some (x.bytes, r) := by
  cases x with
  | stray b =>
    have hb : b.toNat < 16 ^ 2 := b.toNat_lt
    rw [escape, unit?_byte hb, UInt8.ofNat_toNat]
    rfl
  | char c =>
    cases hletter : letterEscapes.lookup c with
    | some letter =>
      simp only [escape, hletter]
      rw [LiteralForm.unit?_backslash_append, lookup_letters hletter]
      rfl
    | none =>
      simp only [escape, hletter]
      split_ifs with hcontrol hprint hplane
      · have hc : c.toNat < 0x80 := by
          simp only [Bool.or_eq_true, decide_eq_true_eq] at hcontrol
          omega
        rw [unit?_byte (by omega), ← utf8EncodeChar_of_lt hc]
        rfl
      · have hne : c ≠ '"' ∧ c ≠ '\\' ∧ c ≠ '\n' := by
          refine ⟨?_, ?_, ?_⟩ <;>
          · rintro rfl
            exact absurd hletter (by decide)
        rw [Text.ofChars_cons, Text.ofChars_nil, List.append_nil,
          LiteralForm.unit?_utf8EncodeChar_append hne.2.1]
        simp [form, hne.1, hne.2.2, Piece.bytes]
      · exact unit?_char rfl rfl hplane r
      · have hc : c.toNat < 16 ^ 8 := c.val.toNat_lt
        exact unit?_char rfl rfl hc r

/-- Hexadecimal digits are no controls. -/
lemma toNat_of_mem_hexDigits {width n : ℕ} {c : Char} (h : c ∈ hexDigits width n) :
    0x20 ≤ c.toNat ∧ c.toNat ≠ 0x7F := by
  induction width generalizing n with
  | zero => simp [hexDigits] at h
  | succ width ih =>
    rcases List.mem_append.1 h with h | h
    · exact ih h
    · have hall : ∀ d < 16, 0x20 ≤ (Nat.digitChar d).toNat ∧ (Nat.digitChar d).toNat ≠ 0x7F := by
        decide
      rw [List.mem_singleton.1 h]
      exact hall _ (Nat.mod_lt n (by omega))

/-- Escapes are written in characters that are no controls. -/
lemma toNat_of_mem_escape {x : Piece} {c : Char} (h : c ∈ escape x) :
    0x20 ≤ c.toNat ∧ c.toNat ≠ 0x7F := by
  have hcode {width n : ℕ} {letter : Char} (hletter : 0x20 ≤ letter.toNat ∧ letter.toNat ≠ 0x7F)
      (hc : c ∈ ['\\', letter] ++ hexDigits width n) : 0x20 ≤ c.toNat ∧ c.toNat ≠ 0x7F := by
    simp only [List.mem_append, List.mem_cons, List.not_mem_nil, or_false] at hc
    rcases hc with (rfl | rfl) | hc
    · decide
    · exact hletter
    · exact toNat_of_mem_hexDigits hc
  cases x with
  | stray b => exact hcode (by decide) h
  | char c' =>
    cases hletter : letterEscapes.lookup c' with
    | some letter =>
      obtain ⟨l, r, hsplit, -⟩ := List.lookup_eq_some_iff.1 hletter
      have hall : ∀ e ∈ letterEscapes, 0x20 ≤ e.2.toNat ∧ e.2.toNat ≠ 0x7F := by decide
      have hplain := hall (c', letter) (by simp [hsplit])
      simp only [escape, hletter] at h
      have hmem : c ∈ ['\\', letter] ++ hexDigits 0 0 := by simpa [hexDigits] using h
      exact hcode hplain hmem
    | none =>
      simp only [escape, hletter] at h
      split_ifs at h with hcontrol
      · exact hcode (by decide) h
      · obtain rfl := List.mem_singleton.1 h
        simp only [Bool.or_eq_true, decide_eq_true_eq] at hcontrol
        omega
      · exact hcode (by decide) h
      · exact hcode (by decide) h

end Quoted

/-! ## Quoted texts -/

/-- The text that is quoted at the front of a text, and the text behind it. -/
def readQuoted? : Text → Option (Text × Text)
  | 0x22 :: t => (Quoted.form.read? t).map fun (units, r) => (units.flatten, r)
  | _ => none

/-- The text that a text quotes, if it is a quoted one. -/
def unquote? (t : Text) : Option Text :=
  match readQuoted? t with
  | some (u, []) => some u
  | _ => none

/-- A quoted text is its escaped pieces between quotes. -/
lemma quoted_eq (t : Text) :
    quoted t = 0x22 :: (Text.ofChars ((pieces t).flatMap Quoted.escape) ++ [0x22]) := by
  rw [quoted, List.cons_append, Text.ofChars_cons, Text.ofChars_append]
  rfl

/-- A quoted text is read back, whatever stands behind it. -/
lemma readQuoted?_quoted_append (t r : Text) : readQuoted? (quoted t ++ r) = some (t, r) := by
  have hread := LiteralForm.read?_flatMap Quoted.unit?_escape (pieces t) r
  have hbytes : ((pieces t).map Piece.bytes).flatten = t := flatMap_bytes_pieces t
  rw [quoted_eq, List.cons_append, List.append_assoc, List.singleton_append, readQuoted?, hread]
  simp only [Option.map_some, hbytes]

/-- A quoted text is read back. -/
lemma unquote?_quoted (t : Text) : unquote? (quoted t) = some t := by
  have hread := readQuoted?_quoted_append t []
  rw [List.append_nil] at hread
  rw [unquote?, hread]

/-- A quoted text has no controls. -/
lemma isControl_of_mem_quoted {t : Text} {b : UInt8} (h : b ∈ quoted t) : isControl b = false := by
  refine isControl_of_mem_ofChars (fun c hc => ?_) h
  simp only [List.cons_append, List.mem_cons, List.mem_append, List.mem_flatMap, List.not_mem_nil,
    or_false] at hc
  rcases hc with rfl | ⟨x, -, hc⟩ | rfl
  · decide
  · exact Quoted.toNat_of_mem_escape hc
  · decide

/-- A quoted text is encoded, whatever bytes it stands for. -/
lemma isUtf8_quoted (t : Text) : IsUtf8 (quoted t) := isUtf8_ofChars _

end ExprLang
