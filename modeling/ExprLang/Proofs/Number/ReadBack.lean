import ExprLang.Proofs.Number.Grid

/-!
# Reading printed numbers

A `Spelling` is what a layout writes for a magnitude: digits before the point without a superfluous
zero, digits behind it, and an exponent.  Reading a spelling with its sign gives every magnitude in
whose interval the number lies that is spelled (`Spelling.ofText_eq_finite`).  Both ways to write down
a decimal spell the number that the decimal denotes (`Decimal.exists_spelling_positional` and
`Decimal.exists_spelling_scientific`), so a number is read back from its digits in any layout
(`Layout.ofText_text`), and different numbers have different plain forms
(`Binary64.plain_injective`).
-/

namespace ExprLang

/-! ## Characters that are digits -/

/-- The encoding of digits is as long as they are. -/
lemma length_ofChars_of_isDigit {cs : List Char} (h : ∀ c ∈ cs, c.isDigit) :
    (Text.ofChars cs).length = cs.length := by
  induction cs with
  | nil => rfl
  | cons c cs ih =>
    obtain ⟨b, hb, -⟩ := exists_utf8EncodeChar_of_isDigit (h c (by simp))
    rw [Text.ofChars_cons, hb, List.singleton_append, List.length_cons, List.length_cons,
      ih fun c' hc' => h c' (by simp [hc'])]

/-- The bytes of digits are digits. -/
lemma isDigit_of_mem_ofChars {cs : List Char} (h : ∀ c ∈ cs, c.isDigit) {b : UInt8}
    (hb : b ∈ Text.ofChars cs) : isDigit b := by
  obtain rfl | hne := eq_or_ne cs []
  · cases hb
  · exact (isDigitRun_ofChars hne h).digit b hb

namespace Numeral

/-- An exponent that stays below ten thousand is read as the number it denotes. -/
lemma exponentValue_eq {t : Text} (h : digitsValue 10 t < 10000) :
    exponentValue t = digitsValue 10 t := by
  induction t using List.reverseRecOn with
  | nil => rfl
  | append_singleton t b ih =>
    have hlast : digitsValue 10 (t ++ [b]) = 10 * digitsValue 10 t + digitValue b := by
      rw [digitsValue, List.foldl_append]
      rfl
    rw [hlast] at h ⊢
    have hread := ih (by omega)
    rw [exponentValue, List.foldl_append, List.foldl_cons, List.foldl_nil]
    rw [exponentValue] at hread
    rw [hread, if_pos (by omega)]

/-- Without underscores there is nothing to object to. -/
lemma underscoresFit_of_notMem (isDigit : UInt8 → Bool) {t : Text} (h : 0x5F ∉ t)
    (behindDigit : Bool) : underscoresFit isDigit behindDigit t := by
  induction t generalizing behindDigit with
  | nil => rfl
  | cons b t ih =>
    have hb : (b == 0x5F) = false := by
      rw [beq_eq_false_iff_ne]
      exact fun hb => h (by simp [hb])
    rw [underscoresFit, hb]
    exact ih (fun hmem => h (List.mem_cons_of_mem b hmem)) _

/-- A text that begins with a digit has no sign. -/
lemma cutSign_of_isDigit {b : UInt8} (hb : isDigit b) (t : Text) :
    cutSign (b :: t) = (none, b :: t) := by
  unfold cutSign
  split
  · next h =>
    rw [(List.cons.inj h).1] at hb
    cases hb
  · next h =>
    rw [(List.cons.inj h).1] at hb
    cases hb
  · rfl

/-! ## Spellings -/

/-- A decimal numeral without a sign: the digits before and behind the point and an exponent with its
sign.  There is no superfluous zero at the front, and no part is so long that reading it would lose
places. -/
structure Spelling where
  whole : List Char
  fraction : List Char
  exponent : Option (Bool × List Char)
  whole_ne_nil : whole ≠ []
  whole_digit : ∀ c ∈ whole, c.isDigit
  whole_zero : whole.head? = some '0' → whole = ['0']
  whole_short : whole.length ≤ 800
  fraction_digit : ∀ c ∈ fraction, c.isDigit
  exponent_ne_nil : ∀ e ∈ exponent, e.2 ≠ []
  exponent_digit : ∀ e ∈ exponent, ∀ c ∈ e.2, c.isDigit
  exponent_short : ∀ e ∈ exponent, Nat.ofDigitChars 10 e.2 0 < 10000

namespace Spelling

variable (s : Spelling)

/-- The characters of the exponent. -/
def exponentChars : List Char :=
  match s.exponent with
  | none => []
  | some (negative, digits) => 'e' :: (if negative then '-' else '+') :: digits

/-- The characters of a spelling. -/
def chars : List Char :=
  s.whole ++ (if s.fraction = [] then [] else '.' :: s.fraction) ++ s.exponentChars

/-- The number that the exponent denotes. -/
def power : ℤ :=
  match s.exponent with
  | none => 0
  | some (negative, digits) =>
    if negative then -Nat.ofDigitChars 10 digits 0 else Nat.ofDigitChars 10 digits 0

/-- The number that is spelled. -/
def toRat : ℚ :=
  Nat.ofDigitChars 10 (s.whole ++ s.fraction) 0 * 10 ^ (s.power - s.fraction.length)

/-- The parts in which a spelling is read. -/
def parts : Parts := ⟨Text.ofChars s.whole, Text.ofChars s.fraction, s.power⟩

/-- The bytes of a spelling. -/
lemma ofChars_chars : Text.ofChars s.chars = Text.ofChars s.whole ++
    ((if s.fraction = [] then [] else 0x2E :: Text.ofChars s.fraction) ++
      Text.ofChars s.exponentChars) := by
  rw [chars, Text.ofChars_append, Text.ofChars_append, List.append_assoc]
  split_ifs <;> rfl

/-! ### Reading a spelling -/

/-- The exponent of a spelling is read as the number it denotes. -/
lemma exponent_cases : (Text.ofChars s.exponentChars = [] ∧ s.power = 0) ∨
    ∃ t, Text.ofChars s.exponentChars = 0x65 :: t ∧ readExponent? t = some s.power := by
  rw [exponentChars, power]
  cases h : s.exponent with
  | none => exact .inl ⟨rfl, rfl⟩
  | some e =>
    obtain ⟨negative, digits⟩ := e
    have hrun := isDigitRun_ofChars (s.exponent_ne_nil _ h) (s.exponent_digit _ h)
    have hvalue := digitsValue_ofChars (s.exponent_digit _ h)
    have hread := exponentValue_eq (hvalue ▸ s.exponent_short _ h)
    have hall : (Text.ofChars digits).all isDigit := List.all_eq_true.2 hrun.digit
    have hsign : cutSign (Text.ofChars ((if negative then '-' else '+') :: digits)) =
        (some negative, Text.ofChars digits) := by
      cases negative <;> rfl
    refine .inr ⟨Text.ofChars ((if negative then '-' else '+') :: digits), rfl, ?_⟩
    rw [readExponent?, hsign]
    simp only [hall, hrun.ne_nil, ne_eq, not_false_eq_true, decide_true, Bool.and_self, ↓reduceIte]
    rw [hread, hvalue]
    cases negative <;> rfl

/-- The digits in front of an exponent end where it begins. -/
lemma span_exponent {t : Text} (h : ∀ b ∈ t, isDigit b) :
    (t ++ Text.ofChars s.exponentChars).takeWhile isDigit = t ∧
      (t ++ Text.ofChars s.exponentChars).dropWhile isDigit = Text.ofChars s.exponentChars := by
  rw [List.takeWhile_append_of_pos h, List.dropWhile_append_of_pos h]
  obtain ⟨hnil, -⟩ | ⟨u, hu, -⟩ := s.exponent_cases
  · rw [hnil]
    exact ⟨List.append_nil t, rfl⟩
  · rw [hu]
    exact ⟨List.append_nil t, rfl⟩

/-- The digits before the point end there, or where the exponent begins. -/
lemma span_whole : (Text.ofChars s.chars).takeWhile isDigit = Text.ofChars s.whole ∧
    (Text.ofChars s.chars).dropWhile isDigit =
      (if s.fraction = [] then [] else 0x2E :: Text.ofChars s.fraction) ++
        Text.ofChars s.exponentChars := by
  have hwhole := (isDigitRun_ofChars s.whole_ne_nil s.whole_digit).digit
  rw [ofChars_chars]
  split_ifs with hnil
  · rw [List.nil_append]
    exact s.span_exponent hwhole
  · rw [List.takeWhile_append_of_pos hwhole, List.dropWhile_append_of_pos hwhole]
    exact ⟨List.append_nil _, rfl⟩

/-- A spelling is read in its parts. -/
lemma readParts?_chars : readParts? decimal (Text.ofChars s.chars) = some s.parts := by
  have hwhole := isDigitRun_ofChars s.whole_ne_nil s.whole_digit
  obtain ⟨htake, hdrop⟩ := s.span_whole
  obtain ⟨htake', hdrop'⟩ := s.span_exponent fun b hb => isDigit_of_mem_ofChars s.fraction_digit hb
  rw [readParts?, parts]
  by_cases hnil : s.fraction = []
  · simp only [decimal, htake, hdrop, if_pos hnil, List.nil_append]
    obtain ⟨hexponent, hpower⟩ | ⟨t, hexponent, hread⟩ := s.exponent_cases
    · simp [hexponent, hpower, hwhole.ne_nil, hnil]
    · simp [hexponent, hread, hwhole.ne_nil, hnil]
  · simp only [decimal, htake, hdrop, if_neg hnil, List.cons_append, htake', hdrop']
    obtain ⟨hexponent, hpower⟩ | ⟨t, hexponent, hread⟩ := s.exponent_cases
    · simp [hexponent, hpower, hwhole.ne_nil]
    · simp [hexponent, hread, hwhole.ne_nil]

/-- The bytes in which numerals are written. -/
def isNumeralByte (b : UInt8) : Bool :=
  isDigit b || b == 0x2B || b == 0x2D || b == 0x2E || b == 0x65

lemma isNumeralByte_of_isDigit {b : UInt8} (h : isDigit b) : isNumeralByte b := by
  simp [isNumeralByte, h]

/-- Spellings are written in these bytes. -/
lemma isNumeralByte_of_mem {b : UInt8} (hb : b ∈ Text.ofChars s.chars) : isNumeralByte b := by
  have hdigits {cs : List Char} (h : ∀ c ∈ cs, c.isDigit) (hmem : b ∈ Text.ofChars cs) :
      isNumeralByte b := isNumeralByte_of_isDigit (isDigit_of_mem_ofChars h hmem)
  rw [ofChars_chars, List.mem_append, List.mem_append] at hb
  rcases hb with hb | hb | hb
  · exact hdigits s.whole_digit hb
  · split_ifs at hb
    · cases hb
    · rcases List.mem_cons.1 hb with rfl | hb
      · rfl
      · exact hdigits s.fraction_digit hb
  · rw [exponentChars] at hb
    cases h : s.exponent with
    | none =>
      rw [h] at hb
      cases hb
    | some e =>
      obtain ⟨negative, digits⟩ := e
      rw [h, Text.ofChars_cons, Text.ofChars_cons, List.mem_append, List.mem_append] at hb
      rcases hb with hb | hb | hb
      · obtain rfl := List.mem_singleton.1 hb
        rfl
      · cases negative <;> obtain rfl := List.mem_singleton.1 hb <;> rfl
      · exact hdigits (s.exponent_digit _ h) hb

/-- The bytes of numerals are of lower case, and neither an underscore nor an `x` is among them. -/
lemma lowerAscii_of_isNumeralByte {b : UInt8} (h : isNumeralByte b) :
    lowerAscii b = b ∧ b ≠ 0x5F ∧ b ≠ 0x78 := by
  simp only [isNumeralByte, Bool.or_eq_true, beq_iff_eq] at h
  rcases h with (((h | rfl) | rfl) | rfl) | rfl
  · have hrange := isDigit_iff.1 h
    have hne {c : UInt8} (hc : isDigit c = false) : b ≠ c := by
      rintro rfl
      rw [hc] at h
      cases h
    refine ⟨?_, hne rfl, hne rfl⟩
    rw [lowerAscii, if_neg]
    simp only [Bool.and_eq_true, decide_eq_true_eq, UInt8.le_iff_toNat_le, UInt8.reduceToNat]
    omega
  all_goals decide

/-- A spelling begins with a digit. -/
lemma exists_ofChars_eq_cons : ∃ b t, Text.ofChars s.chars = b :: t ∧ isDigit b := by
  have hrun := isDigitRun_ofChars s.whole_ne_nil s.whole_digit
  obtain ⟨b, t, ht⟩ := List.exists_cons_of_ne_nil hrun.ne_nil
  have hb : isDigit b := hrun.digit b (by simp [ht])
  rw [ofChars_chars, ht]
  exact ⟨b, _, rfl, hb⟩

/-- A spelling is read as a decimal numeral. -/
lemma readDigits?_chars (negative : Bool) :
    readDigits? negative (Text.ofChars s.chars) = some (Parts.decimalValue negative s.parts) := by
  have hbyte : ∀ b ∈ Text.ofChars s.chars, b ≠ 0x5F ∧ b ≠ 0x78 := fun b hb =>
    (lowerAscii_of_isNumeralByte (s.isNumeralByte_of_mem hb)).2
  have hstyle : ∀ b r, Text.ofChars s.chars ≠ 0x30 :: 0x78 :: b :: r := fun b r h =>
    (hbyte 0x78 (by simp [h])).2 rfl
  have hfilter : (Text.ofChars s.chars).filter (· != 0x5F) = Text.ofChars s.chars :=
    List.filter_eq_self.2 fun b hb => bne_iff_ne.2 (hbyte b hb).1
  have hfit : underscoresFit decimal.isDigit false (Text.ofChars s.chars) = true :=
    underscoresFit_of_notMem _ (fun hmem => (hbyte _ hmem).1 rfl) false
  rw [readDigits?, if_pos hfit, hfilter, readParts?_chars]
  · rfl
  · exact hstyle

/-- A spelling with a sign is read as the value of its parts. -/
lemma ofText_eq_decimalValue (negative : Bool) :
    Binary64.ofText (Text.ofChars ((if negative then ['-'] else []) ++ s.chars)) =
      Parts.decimalValue negative s.parts := by
  obtain ⟨b, t, ht, hb⟩ := s.exists_ofChars_eq_cons
  have hsign : Text.ofChars ((if negative then ['-'] else []) ++ s.chars) =
      (if negative then [0x2D] else []) ++ Text.ofChars s.chars := by
    cases negative <;> rfl
  have hlower : (Text.ofChars s.chars).map lowerAscii = Text.ofChars s.chars :=
    (List.map_congr_left fun b hb =>
      (lowerAscii_of_isNumeralByte (s.isNumeralByte_of_mem hb)).1).trans (List.map_id _)
  have hread := s.readDigits?_chars negative
  rw [hsign, Binary64.ofText, Binary64.ofNumeral?, List.map_append, hlower]
  rw [ht] at hread ⊢
  have hhead {c : UInt8} (u : Text) (hc : isDigit c = false) : b :: t ≠ c :: u := by
    intro h
    rw [(List.cons.inj h).1, hc] at hb
    cases hb
  have hcut : cutSign ((if negative then [0x2D] else []).map lowerAscii ++ b :: t) =
      (if negative then some true else none, b :: t) := by
    cases negative
    · exact cutSign_of_isDigit hb t
    · rfl
  have hinf : b :: t ≠ utf8 "inf" := hhead (utf8 "nf") rfl
  have hinfinity : b :: t ≠ utf8 "infinity" := hhead (utf8 "nfinity") rfl
  have hnan : b :: t ≠ utf8 "nan" := hhead (utf8 "an") rfl
  have hnegative : ((if negative then some true else none) == some true) = negative := by
    cases negative <;> rfl
  rw [hcut]
  simp only [hinf, hinfinity, hnan, decide_false, Bool.or_self, Bool.false_eq_true, ↓reduceIte,
    hnegative, hread, Option.getD_some]

/-- Reading a spelling gives every magnitude in whose interval the spelled number lies. -/
lemma ofText_eq_finite {m : Magnitude} (h : s.toRat ∈ m.interval) (negative : Bool) :
    Binary64.ofText (Text.ofChars ((if negative then ['-'] else []) ++ s.chars)) =
      .finite negative m := by
  have hplaces : s.parts.lostPlaces = 0 := by
    have hshort : (Parts.significant (Text.ofChars s.whole)).length ≤ 800 := by
      have hle : (Parts.significant (Text.ofChars s.whole)).length ≤ (Text.ofChars s.whole).length :=
        (List.dropWhile_sublist _).length_le
      rw [length_ofChars_of_isDigit s.whole_digit] at hle
      exact hle.trans s.whole_short
    simp only [Parts.lostPlaces, parts, hshort, decide_true, Bool.true_or, ↓reduceIte]
  have hdigits : digitsValue 10 s.parts.digits = Nat.ofDigitChars 10 (s.whole ++ s.fraction) 0 := by
    rw [Parts.digits, parts, ← Text.ofChars_append, digitsValue_ofChars]
    intro c hc
    rcases List.mem_append.1 hc with hc | hc
    · exact s.whole_digit c hc
    · exact s.fraction_digit c hc
  have hpower : s.parts.decimalPower = s.power - s.fraction.length := by
    rw [Parts.decimalPower, parts, length_ofChars_of_isDigit s.fraction_digit]
  rw [ofText_eq_decimalValue, Parts.decimalValue, hplaces, hdigits, hpower, Nat.cast_zero, sub_zero]
  exact scale_eq_finite_iff.2 h

/-- Digits on both sides of the point make a spelling without an exponent. -/
lemma exists_of_digits (whole fraction : List Char) (hne : whole ≠ [])
    (hwhole : ∀ c ∈ whole, c.isDigit) (hzero : whole.head? = some '0' → whole = ['0'])
    (hshort : whole.length ≤ 800) (hfraction : ∀ c ∈ fraction, c.isDigit) :
    ∃ s : Spelling, s.chars = whole ++ (if fraction = [] then [] else '.' :: fraction) ∧
      s.toRat = Nat.ofDigitChars 10 (whole ++ fraction) 0 * 10 ^ (-(fraction.length : ℤ)) ∧
      s.whole ++ s.fraction = whole ++ fraction := by
  refine ⟨{ whole, fraction
            exponent := none
            whole_ne_nil := hne
            whole_digit := hwhole
            whole_zero := hzero
            whole_short := hshort
            fraction_digit := hfraction
            exponent_ne_nil := nofun
            exponent_digit := nofun
            exponent_short := nofun }, List.append_nil _, ?_, rfl⟩
  rw [toRat, power, zero_sub]

end Spelling

end Numeral

/-! ## The spellings of a decimal -/

namespace Decimal

open Numeral

/-- Digits without a zero at the front that are neither too many nor too few for a binary64 number. -/
structure IsProper (d : Decimal) : Prop where
  ne_nil : d.digits ≠ []
  digit : ∀ c ∈ d.digits, c.isDigit
  head : d.digits.head? ≠ some '0'
  low : -1000 ≤ d.point
  high : d.point ≤ 800

/-- A spelling has the digits of a decimal, with zeros around them, and spells the same number. -/
structure IsSpelledBy (d : Decimal) (s : Spelling) : Prop where
  toRat_eq : s.toRat = d.toRat
  digits_eq : ∃ i j : ℕ,
    s.whole ++ s.fraction = List.replicate i '0' ++ d.digits ++ List.replicate j '0'

variable {d : Decimal}

lemma isDigit_of_mem_replicate_zero {n : ℕ} {c : Char} (h : c ∈ List.replicate n '0') :
    c.isDigit := by
  rw [List.eq_of_mem_replicate h]
  rfl

/-- Zeros at the front do not count. -/
lemma ofDigitChars_zeros_append (n : ℕ) (cs : List Char) :
    Nat.ofDigitChars 10 (List.replicate n '0' ++ cs) 0 = Nat.ofDigitChars 10 cs 0 := by
  rw [Nat.ofDigitChars_append, ofDigitChars_replicate_zero, Nat.zero_mul]

/-- With all digits behind the point, a decimal is a spelling of the number that it denotes. -/
lemma exists_spelling_of_point_nonpos (h : d.IsProper) (hpoint : d.point ≤ 0) :
    ∃ s : Spelling, s.chars = d.positional ∧ d.IsSpelledBy s := by
  have hfraction : ∀ c ∈ List.replicate (-d.point).toNat '0' ++ d.digits, c.isDigit := fun c hc =>
    (List.mem_append.1 hc).elim isDigit_of_mem_replicate_zero (h.digit c)
  obtain ⟨s, hchars, hvalue, hdigits⟩ := Spelling.exists_of_digits ['0'] _ (by simp) (by simp)
    (fun _ => rfl) (by simp) hfraction
  refine ⟨s, ?_, ?_, (-d.point).toNat + 1, 0, ?_⟩
  · rw [hchars, if_neg (by simp [h.ne_nil]), positional, if_pos hpoint]
    simp
  · have hpower : -((List.replicate (-d.point).toNat '0' ++ d.digits).length : ℤ) =
        d.point - d.digits.length := by
      rw [List.length_append, List.length_replicate]
      omega
    have hzeros := ofDigitChars_zeros_append ((-d.point).toNat + 1) d.digits
    rw [List.replicate_succ, List.cons_append] at hzeros
    rw [hvalue, hpower, List.singleton_append, hzeros, toRat]
  · rw [hdigits, List.replicate_zero, List.append_nil, List.replicate_succ]
    rfl

/-- With the point among its digits, a decimal is a spelling of the number that it denotes. -/
lemma exists_spelling_of_point_lt (h : d.IsProper) (hpos : 0 < d.point.toNat)
    (hplaces : d.point.toNat < d.digits.length) :
    ∃ s : Spelling, s.chars = d.digits.take d.point.toNat ++ '.' :: d.digits.drop d.point.toNat ∧
      d.IsSpelledBy s := by
  have hhigh := h.high
  have hfraction : d.digits.drop d.point.toNat ≠ [] := by
    rw [Ne, List.drop_eq_nil_iff]
    omega
  obtain ⟨s, hchars, hvalue, hdigits⟩ := Spelling.exists_of_digits (d.digits.take d.point.toNat)
    (d.digits.drop d.point.toNat) (by simp [h.ne_nil]; omega)
    (fun c hc => h.digit c (List.mem_of_mem_take hc))
    (fun hzero => absurd (by simpa [List.head?_take, hpos.ne'] using hzero) h.head)
    (by rw [List.length_take]; omega) (fun c hc => h.digit c (List.mem_of_mem_drop hc))
  rw [List.take_append_drop] at hvalue hdigits
  refine ⟨s, ?_, ?_, 0, 0, by simpa using hdigits⟩
  · rw [hchars, if_neg hfraction]
  · have hpower : -((d.digits.drop d.point.toNat).length : ℤ) = d.point - d.digits.length := by
      rw [List.length_drop]
      omega
    rw [hvalue, hpower, toRat]

/-- With zeros behind its digits, a decimal is a spelling of the number that it denotes. -/
lemma exists_spelling_of_point_eq (h : d.IsProper) {z : ℕ} (hz : d.point = d.digits.length + z) :
    ∃ s : Spelling, s.chars = d.digits ++ List.replicate z '0' ∧ d.IsSpelledBy s := by
  have hhigh := h.high
  obtain ⟨s, hchars, hvalue, hdigits⟩ := Spelling.exists_of_digits
    (d.digits ++ List.replicate z '0') [] (by simp [h.ne_nil])
    (fun c hc => (List.mem_append.1 hc).elim (h.digit c) isDigit_of_mem_replicate_zero)
    (fun hzero => absurd (by simpa [h.ne_nil] using hzero) h.head)
    (by rw [List.length_append, List.length_replicate]; omega) (by simp)
  rw [List.append_nil] at hvalue hdigits
  refine ⟨s, ?_, ?_, 0, z, hdigits⟩
  · rw [hchars, if_pos rfl, List.append_nil]
  · rw [hvalue, toRat, Nat.ofDigitChars_append, ofDigitChars_replicate_zero, hz,
      add_sub_cancel_left, zpow_natCast]
    push_cast
    simp

/-- Written positionally, a decimal is a spelling of the number that it denotes. -/
lemma exists_spelling_positional (h : d.IsProper) :
    ∃ s : Spelling, s.chars = d.positional ∧ d.IsSpelledBy s := by
  rcases le_or_gt d.point 0 with hpoint | hpoint
  · exact exists_spelling_of_point_nonpos h hpoint
  · rw [positional, if_neg (by omega)]
    dsimp only
    split_ifs with hplaces
    · rw [List.append_assoc, List.singleton_append]
      exact exists_spelling_of_point_lt h (by omega) hplaces
    · exact exists_spelling_of_point_eq h (by omega)

/-- Written with an exponent, a decimal is a spelling of the number that it denotes. -/
lemma exists_spelling_scientific (h : d.IsProper) (width : ℕ) :
    ∃ s : Spelling, s.chars = d.scientific width ∧ d.IsSpelledBy s := by
  have hlow := h.low
  have hhigh := h.high
  let zeros := List.replicate (width - (Nat.toDigits 10 d.exponent.natAbs).length) '0'
  have hexponent : Nat.ofDigitChars 10 (zeros ++ Nat.toDigits 10 d.exponent.natAbs) 0 =
      d.exponent.natAbs := by
    rw [ofDigitChars_zeros_append, Nat.ofDigitChars_toDigits (by omega) le_rfl]
  have hsmall : d.exponent.natAbs < 10000 := by
    rw [Decimal.exponent]
    omega
  have hlength : 0 < d.digits.length := List.length_pos_iff.2 h.ne_nil
  refine ⟨{ whole := d.digits.take 1
            fraction := d.digits.drop 1
            exponent := some (d.exponent < 0, zeros ++ Nat.toDigits 10 d.exponent.natAbs)
            whole_ne_nil := by simp [h.ne_nil]
            whole_digit := fun c hc => h.digit c (List.mem_of_mem_take hc)
            whole_zero := fun hzero => absurd (by simpa [List.head?_take] using hzero) h.head
            whole_short := by rw [List.length_take]; omega
            fraction_digit := fun c hc => h.digit c (List.mem_of_mem_drop hc)
            exponent_ne_nil := by simp [Nat.toDigits_ne_nil]
            exponent_digit := ?_
            exponent_short := ?_ }, ?_, ?_, 0, 0, ?_⟩
  · rintro e he c hc
    obtain rfl := Option.some.inj he
    exact (List.mem_append.1 hc).elim isDigit_of_mem_replicate_zero
      (Nat.isDigit_of_mem_toDigits (by omega) le_rfl)
  · rintro e he
    obtain rfl := Option.some.inj he
    exact hexponent.trans_lt hsmall
  · simp [Spelling.chars, Spelling.exponentChars, scientific, zeros]
  · have hpower : (if d.exponent < 0 then -(d.exponent.natAbs : ℤ) else d.exponent.natAbs) =
        d.exponent := by
      split_ifs <;> omega
    simp only [Spelling.toRat, Spelling.power, hexponent, decide_eq_true_eq, hpower,
      List.take_append_drop, toRat, List.length_drop]
    congr 2
    rw [Decimal.exponent]
    omega
  · rw [List.replicate_zero, List.append_nil, List.nil_append]
    exact List.take_append_drop 1 d.digits

/-- The numeral of a positive number does not begin with a zero. -/
lemma head?_toDigits_ne {n : ℕ} (hn : 0 < n) : (Nat.toDigits 10 n).head? ≠ some '0' := by
  induction n using Nat.strongRecOn with
  | ind n ih =>
    rcases Nat.lt_or_ge n 10 with hlt | hge
    · rw [Nat.toDigits_of_lt_base hlt]
      simpa using hn.ne'
    · have hhead := ih (n / 10) (by omega) (by omega)
      obtain ⟨c, cs, hcs⟩ := List.exists_cons_of_ne_nil (Nat.toDigits_ne_nil (n := n / 10) (b := 10))
      rw [Nat.toDigits_of_base_le (by omega) hge]
      simpa [hcs] using hhead

/-- A positive number is at least the power of ten of its first digit. -/
lemma pow_le_of_pos {n : ℕ} (hn : 0 < n) : 10 ^ ((Nat.toDigits 10 n).length - 1) ≤ n := by
  have hlength : 0 < (Nat.toDigits 10 n).length := Nat.length_toDigits_pos
  rcases Nat.eq_zero_or_pos ((Nat.toDigits 10 n).length - 1) with hone | hmore
  · rwa [hone]
  · have hlarge := (Nat.length_toDigits_le_iff (b := 10) (n := n) (by omega) hmore).not
    omega

/-- A multiple of a step that rounds to a magnitude ends well before the bound of all magnitudes. -/
lemma length_toDigits_add_le {m : Magnitude} {n j : ℕ} (hn : 0 < n)
    (hmem : (n * Magnitude.step j : ℚ) ∈ m.interval) :
    (Nat.toDigits 10 n).length + ((j : ℤ) - gridOffset) ≤ 342 := by
  have hbound : (Magnitude.bound : ℚ) ≤ 10 ^ 342 := by
    have hle := bound_mul_le (k := 0) (n := 342) (by omega)
    generalize Magnitude.bound = bound at *
    rw [pow_zero, mul_one] at hle
    exact_mod_cast hle
  have hpow : (10 : ℚ) ^ ((Nat.toDigits 10 n).length - 1) ≤ n := by
    exact_mod_cast pow_le_of_pos hn
  have hlt : (10 : ℚ) ^ (((Nat.toDigits 10 n).length - 1 : ℕ) + ((j : ℤ) - gridOffset)) <
      10 ^ (342 : ℤ) := by
    calc (10 : ℚ) ^ (((Nat.toDigits 10 n).length - 1 : ℕ) + ((j : ℤ) - gridOffset))
        = 10 ^ ((Nat.toDigits 10 n).length - 1) * Magnitude.step j := by
          rw [zpow_add₀ (by norm_num), zpow_natCast, Magnitude.step]
      _ ≤ n * Magnitude.step j := mul_le_mul_of_nonneg_right hpow (Magnitude.step_pos j).le
      _ < Magnitude.bound := Magnitude.lt_bound_of_mem_interval hmem
      _ ≤ 10 ^ (342 : ℤ) := hbound
  have hlength : 0 < (Nat.toDigits 10 n).length := Nat.length_toDigits_pos
  rw [zpow_lt_zpow_iff_right₀ (by norm_num)] at hlt
  omega

/-- The shortest decimal of a magnitude other than zero is proper. -/
lemma isProper_shortest {m : Magnitude} (hm : m.mantissa ≠ 0) : (shortest m).IsProper := by
  obtain ⟨top, n, j, hshortest, hhit, -⟩ := exists_shortest_eq m
  have hn : 0 < n := Magnitude.pos_of_mul_mem_interval hm hhit.mem
  have hdigits := digits_scaled_append n ((j : ℤ) - gridOffset)
  have hpoint : (scaled n ((j : ℤ) - gridOffset)).point =
      (Nat.toDigits 10 n).length + ((j : ℤ) - gridOffset) := rfl
  have hlength : 0 < (Nat.toDigits 10 n).length := Nat.length_toDigits_pos
  have hbound := length_toDigits_add_le hn hhit.mem
  have hoffset : gridOffset = 400 := rfl
  rw [hshortest]
  refine ⟨fun hnil => ?_, fun c hc => ?_, fun hhead => ?_, by omega, by omega⟩
  · have hvalue := Nat.ofDigitChars_toDigits (b := 10) (n := n) (by omega) le_rfl
    rw [← hdigits, hnil, List.nil_append, ofDigitChars_replicate_zero, Nat.zero_mul] at hvalue
    omega
  · refine Nat.isDigit_of_mem_toDigits (n := n) (by omega) le_rfl ?_
    rw [← hdigits]
    exact List.mem_append_left _ hc
  · refine head?_toDigits_ne hn ?_
    rw [← hdigits, List.head?_append, hhead, Option.some_or]

end Decimal

/-! ## Numbers in a layout -/

namespace Layout

variable {m : Magnitude}

/-- In every layout a magnitude other than zero is spelled by its shortest decimal. -/
lemma exists_isSpelledBy_shortest (l : Layout) (hm : m.mantissa ≠ 0) :
    ∃ s : Numeral.Spelling, s.chars = l.digits m ∧ (Decimal.shortest m).IsSpelledBy s := by
  have hproper := Decimal.isProper_shortest hm
  rw [digits, if_neg hm]
  dsimp only
  split_ifs
  · exact Decimal.exists_spelling_positional hproper
  · exact Decimal.exists_spelling_scientific hproper l.exponentWidth

/-- In every layout zero is spelled by one digit. -/
lemma exists_spelling_zero (l : Layout) (hm : m.mantissa = 0) :
    ∃ s : Numeral.Spelling, s.chars = l.digits m ∧ s.toRat = 0 ∧ s.whole ++ s.fraction = ['0'] := by
  obtain ⟨s, hchars, hvalue, hdigits⟩ := Numeral.Spelling.exists_of_digits ['0'] [] (by simp)
    (by simp) (fun _ => rfl) (by simp) (by simp)
  have hzero : Nat.ofDigitChars 10 (['0'] ++ []) 0 = 0 := rfl
  refine ⟨s, ?_, ?_, hdigits⟩
  · rw [hchars, digits, if_pos hm]
    rfl
  · rw [hvalue, hzero, Nat.cast_zero, zero_mul]

/-- In every layout a magnitude is spelled with a number of its interval. -/
lemma exists_spelling_digits (l : Layout) (m : Magnitude) :
    ∃ s : Numeral.Spelling, s.chars = l.digits m ∧ s.toRat ∈ m.interval := by
  by_cases hm : m.mantissa = 0
  · obtain ⟨s, hchars, hvalue, -⟩ := l.exists_spelling_zero hm
    have hzero := Magnitude.toRat_of_mantissa_eq_zero hm
    exact ⟨s, hchars, hvalue.trans hzero.symm ▸ m.toRat_mem_interval⟩
  · obtain ⟨s, hchars, hspelled⟩ := l.exists_isSpelledBy_shortest hm
    exact ⟨s, hchars, hspelled.toRat_eq ▸ Decimal.toRat_shortest_mem m⟩

/-- A finite number is read back from what any layout writes for it. -/
lemma ofText_text (l : Layout) (negative : Bool) (m : Magnitude) :
    Binary64.ofText (l.text negative m) = .finite negative m := by
  obtain ⟨s, hchars, hmem⟩ := l.exists_spelling_digits m
  rw [text, ← hchars]
  exact s.ofText_eq_finite hmem negative

end Layout

/-- Every number is read back from its plain form. -/
@[simp] lemma Binary64.ofText_plain (v : Binary64) : Binary64.ofText v.plain = v := by
  match v with
  | .nan => rfl
  | .infinite false => rfl
  | .infinite true => rfl
  | .finite negative m => exact Layout.ofText_text _ negative m

/-- Different numbers have different plain forms. -/
lemma Binary64.plain_injective : Function.Injective Binary64.plain :=
  Function.LeftInverse.injective Binary64.ofText_plain

end ExprLang
