import ExprLang.Proofs.Number.ReadBack

/-!
# Shortest numerals

The significant digits of a numeral are its digits up to the exponent, without the zeros at their
front and end.  A numeral is shortest if it is read as a finite number and no decimal that is read as
that number has fewer digits (`IsShortestNumeral`).  Every layout writes shortest numerals
(`Layout.isShortestNumeral_text`): the digits that are written are those of the shortest decimal with
zeros around them, and these do not count.
-/

namespace ExprLang

/-- Digits without the zeros at their front and end. -/
def stripZeros (t : Text) : Text :=
  ((t.dropWhile (· == 0x30)).reverse.dropWhile (· == 0x30)).reverse

/-- The number of significant digits of a numeral. -/
def significantDigits (t : Text) : ℕ :=
  (stripZeros ((t.takeWhile (· != 0x65)).filter isDigit)).length

/-- A numeral is read as a finite number, and no decimal that is read as this number has fewer
digits. -/
structure IsShortestNumeral (t : Text) (negative : Bool) (m : Magnitude) : Prop where
  ofText_eq : Binary64.ofText t = .finite negative m
  le : ∀ (k : ℕ) (e : ℤ), Numeral.scale negative k 10 e = .finite negative m →
    significantDigits t ≤ (Nat.toDigits 10 k).length

/-- Zeros around digits are stripped. -/
lemma length_stripZeros_le (i j : ℕ) (t : Text) :
    (stripZeros (List.replicate i 0x30 ++ t ++ List.replicate j 0x30)).length ≤ t.length := by
  have hzeros (n : ℕ) : ∀ b ∈ List.replicate n (0x30 : UInt8), (b == 0x30) = true := fun b hb =>
    beq_iff_eq.2 (List.eq_of_mem_replicate hb)
  have hle : (t.dropWhile (· == 0x30)).length ≤ t.length := (List.dropWhile_sublist _).length_le
  rw [stripZeros, List.append_assoc, List.dropWhile_append_of_pos (hzeros i), List.dropWhile_append,
    List.length_reverse]
  split_ifs with hempty
  · rw [List.dropWhile_eq_nil_iff.2 (hzeros j)]
    exact Nat.zero_le _
  · rw [List.reverse_append, List.reverse_replicate, List.dropWhile_append_of_pos (hzeros j)]
    refine ((List.dropWhile_sublist _).length_le).trans ?_
    rwa [List.length_reverse]

namespace Numeral.Spelling

variable (s : Spelling)

/-- The digits of a spelling up to its exponent. -/
lemma filter_isDigit (negative : Bool) :
    ((Text.ofChars ((if negative then ['-'] else []) ++ s.chars)).takeWhile (· != 0x65)).filter
      isDigit = Text.ofChars (s.whole ++ s.fraction) := by
  have hdigit {cs : List Char} (h : ∀ c ∈ cs, c.isDigit) :
      (∀ b ∈ Text.ofChars cs, (b != 0x65) = true) ∧
        (Text.ofChars cs).filter isDigit = Text.ofChars cs := by
    refine ⟨fun b hb => ?_, List.filter_eq_self.2 fun b hb => isDigit_of_mem_ofChars h hb⟩
    rw [bne_iff_ne]
    rintro rfl
    cases isDigit_of_mem_ofChars h hb
  -- the sign and the point are passed over
  have hskip {b : UInt8} {t : Text} (hb : b ≠ 0x65) (hd : isDigit b = false) :
      ((b :: t).takeWhile (· != 0x65)).filter isDigit =
        (t.takeWhile (· != 0x65)).filter isDigit := by
    simp [hb, hd]
  have hexponent : (Text.ofChars s.exponentChars).takeWhile (· != 0x65) = [] := by
    obtain ⟨hnil, -⟩ | ⟨t, ht, -⟩ := s.exponent_cases
    · rw [hnil, List.takeWhile_nil]
    · rw [ht]
      rfl
  obtain ⟨hwhole, hwhole'⟩ := hdigit s.whole_digit
  obtain ⟨hfraction, hfraction'⟩ := hdigit s.fraction_digit
  have hchars : ((Text.ofChars s.chars).takeWhile (· != 0x65)).filter isDigit =
      Text.ofChars (s.whole ++ s.fraction) := by
    rw [ofChars_chars, List.takeWhile_append_of_pos hwhole, List.filter_append, hwhole',
      Text.ofChars_append]
    congr 1
    split_ifs with hnil
    · rw [List.nil_append, hexponent, hnil]
      rfl
    · rw [List.cons_append, hskip (by decide) rfl, List.takeWhile_append_of_pos hfraction, hexponent,
        List.append_nil, hfraction']
  cases negative with
  | false => exact hchars
  | true =>
    have hsign : Text.ofChars (['-'] ++ s.chars) = 0x2D :: Text.ofChars s.chars := rfl
    rw [if_pos rfl, hsign, hskip (by decide) rfl, hchars]

/-- The zeros around the digits of a decimal are not significant. -/
lemma significantDigits_le {d : Decimal} (h : d.IsSpelledBy s) (hdigit : ∀ c ∈ d.digits, c.isDigit)
    (negative : Bool) :
    significantDigits (Text.ofChars ((if negative then ['-'] else []) ++ s.chars)) ≤
      d.digits.length := by
  have hzeros (n : ℕ) : Text.ofChars (List.replicate n '0') = List.replicate n 0x30 := by
    induction n with
    | zero => rfl
    | succ n ih =>
      rw [List.replicate_succ, List.replicate_succ, Text.ofChars_cons, ih]
      rfl
  obtain ⟨i, j, hdigits⟩ := h.digits_eq
  rw [significantDigits, filter_isDigit, hdigits, Text.ofChars_append, Text.ofChars_append, hzeros,
    hzeros, ← length_ofChars_of_isDigit hdigit]
  exact length_stripZeros_le i j _

end Numeral.Spelling

/-- Every layout writes shortest numerals. -/
lemma Layout.isShortestNumeral_text (l : Layout) (negative : Bool) (m : Magnitude) :
    IsShortestNumeral (l.text negative m) negative m := by
  refine ⟨l.ofText_text negative m, fun k e hk => ?_⟩
  by_cases hm : m.mantissa = 0
  · obtain ⟨s, hchars, -, hdigits⟩ := l.exists_spelling_zero hm
    rw [text, ← hchars, significantDigits, s.filter_isDigit, hdigits]
    exact Nat.zero_le _
  · obtain ⟨s, hchars, hspelled⟩ := l.exists_isSpelledBy_shortest hm
    have hdigit := (Decimal.isProper_shortest hm).digit
    calc significantDigits (l.text negative m) ≤ (Decimal.shortest m).digits.length := by
          rw [text, ← hchars]
          exact s.significantDigits_le hspelled hdigit negative
      _ ≤ (Nat.toDigits 10 k).length :=
          Decimal.length_digits_shortest_le hm (Numeral.scale_eq_finite_iff.1 hk)

end ExprLang
