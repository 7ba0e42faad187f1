import ExprLang.Number.Numeral
import ExprLang.Proofs.Number.Rounding
import Mathlib.Data.List.TakeWhile

/-!
# Digit runs

A digit run is a text of decimal digits, at least one.  It denotes a whole number, however long it
is, and reading it gives the binary64 number nearest to that (`IsDigitRun.ofText_eq`).  The window
through which long numerals are read makes no difference here: a run that does not fit the window
denotes a number beyond the largest finite one, and so does what the window leaves of it.
-/

namespace ExprLang

/-- Decimal digits, at least one. -/
structure IsDigitRun (t : Text) : Prop where
  ne_nil : t ≠ []
  digit : ∀ b ∈ t, isDigit b

/-- The bytes that are digits. -/
lemma isDigit_iff {b : UInt8} : isDigit b ↔ 0x30 ≤ b.toNat ∧ b.toNat ≤ 0x39 := by
  simp only [isDigit, Bool.and_eq_true, decide_eq_true_eq, UInt8.le_iff_toNat_le]
  rfl

/-- A digit is a single byte with the code of the character. -/
lemma exists_utf8EncodeChar_of_isDigit {c : Char} (h : c.isDigit) :
    ∃ b, String.utf8EncodeChar c = [b] ∧ b.toNat = c.toNat := by
  have hrange : 0x30 ≤ c.toNat ∧ c.toNat ≤ 0x39 := Char.isDigit_iff_toNat.1 h
  have hsize : c.utf8Size = 1 := by
    rw [Char.utf8Size_eq_one_iff, UInt32.le_iff_toNat_le, Char.toNat_val]
    exact hrange.2.trans (by decide)
  refine ⟨c.val.toUInt8, String.utf8EncodeChar_eq_singleton hsize, ?_⟩
  rw [UInt32.toNat_toUInt8, Char.toNat_val]
  omega

/-- Characters that are digits make a digit run. -/
lemma isDigitRun_ofChars {cs : List Char} (hne : cs ≠ []) (h : ∀ c ∈ cs, c.isDigit) :
    IsDigitRun (Text.ofChars cs) := by
  refine ⟨fun hnil => ?_, fun b hb => ?_⟩
  · obtain ⟨c, cs, rfl⟩ := List.exists_cons_of_ne_nil hne
    simp [String.utf8EncodeChar_ne_nil] at hnil
  · obtain ⟨c, hc, hbc⟩ := List.mem_flatMap.1 hb
    obtain ⟨b', hchar, hnat⟩ := exists_utf8EncodeChar_of_isDigit (h c hc)
    obtain rfl : b = b' := by simpa [hchar] using hbc
    have hrange : 0x30 ≤ c.toNat ∧ c.toNat ≤ 0x39 := Char.isDigit_iff_toNat.1 (h c hc)
    rwa [isDigit_iff, hnat]

namespace Numeral

/-! ## The number that digits denote -/

@[simp] lemma digitsValue_nil (radix : ℕ) : digitsValue radix [] = 0 := rfl

/-- Digits in front of others count as many times as those have places. -/
lemma digitsValue_append (radix : ℕ) (t u : Text) :
    digitsValue radix (t ++ u) = digitsValue radix t * radix ^ u.length + digitsValue radix u := by
  induction u using List.reverseRecOn with
  | nil => simp
  | append_singleton u b ih =>
    have hlast (v : Text) :
        digitsValue radix (v ++ [b]) = radix * digitsValue radix v + digitValue b := by
      rw [digitsValue, List.foldl_append]
      rfl
    rw [← List.append_assoc, hlast, hlast, ih, List.length_append, List.length_singleton]
    ring

/-- The first digit counts as many times as the others have places. -/
lemma digitsValue_cons (radix : ℕ) (b : UInt8) (t : Text) :
    digitsValue radix (b :: t) = digitValue b * radix ^ t.length + digitsValue radix t := by
  have hone : digitsValue radix [b] = digitValue b := by simp [digitsValue]
  rw [← List.singleton_append, digitsValue_append, hone]

/-- Zeros at the front do not count. -/
lemma digitsValue_significant (radix : ℕ) (t : Text) :
    digitsValue radix (Parts.significant t) = digitsValue radix t := by
  induction t with
  | nil => rfl
  | cons b t ih =>
    rw [Parts.significant, List.dropWhile_cons]
    split_ifs with hzero
    · have hb : b = 0x30 := by simpa using hzero
      have hvalue : digitValue b = 0 := by rw [hb]; rfl
      rw [digitsValue_cons, hvalue, Nat.zero_mul, Nat.zero_add]
      exact ih
    · rfl

/-- A number is at least the power of ten of its first digit that is not zero. -/
lemma le_digitsValue {t : Text} (h : ∀ b ∈ t, isDigit b) {n : ℕ}
    (hn : n < (Parts.significant t).length) : 10 ^ n ≤ digitsValue 10 t := by
  rw [← digitsValue_significant]
  cases ht : Parts.significant t with
  | nil => simp [ht] at hn
  | cons b u =>
    have hne : b ≠ 0x30 := by
      have hhead := List.head?_dropWhile_not (· == (0x30 : UInt8)) t
      rw [← Parts.significant, ht] at hhead
      simpa using hhead
    have hmem : b ∈ t := by
      have hmem : b ∈ Parts.significant t := by simp [ht]
      exact (List.dropWhile_sublist _).mem hmem
    have hvalue : 1 ≤ digitValue b := by
      have hdigit := h b hmem
      have hrange := isDigit_iff.1 hdigit
      have hne' : b.toNat ≠ 0x30 := fun heq => hne (UInt8.toNat_inj.1 heq)
      rw [digitValue, if_pos hdigit]
      omega
    rw [ht, List.length_cons] at hn
    rw [digitsValue_cons]
    calc 10 ^ n ≤ 10 ^ u.length := Nat.pow_le_pow_right (by norm_num) (by omega)
      _ ≤ digitValue b * 10 ^ u.length := Nat.le_mul_of_pos_left _ hvalue
      _ ≤ _ := Nat.le_add_right _ _

/-- Characters that are digits denote the number that they spell. -/
lemma digitsValue_ofChars {cs : List Char} (h : ∀ c ∈ cs, c.isDigit) :
    digitsValue 10 (Text.ofChars cs) = Nat.ofDigitChars 10 cs 0 := by
  rw [digitsValue]
  generalize 0 = n
  induction cs generalizing n with
  | nil => rfl
  | cons c cs ih =>
    have hc : c.isDigit := h c (by simp)
    obtain ⟨b, hchar, hnat⟩ := exists_utf8EncodeChar_of_isDigit hc
    have hrange : 0x30 ≤ c.toNat ∧ c.toNat ≤ 0x39 := Char.isDigit_iff_toNat.1 hc
    have hvalue : digitValue b = c.toNat - '0'.toNat := by
      rw [digitValue, if_pos (isDigit_iff.2 (by omega)), hnat]
      rfl
    rw [Text.ofChars_cons, hchar, Nat.ofDigitChars_cons, List.singleton_append, List.foldl_cons,
      hvalue]
    exact ih (fun c' hc' => h c' (by simp [hc'])) _

/-! ## Reading a digit run -/

/-- A number with 343 digits is beyond every magnitude. -/
lemma bound_mul_le {k n : ℕ} (h : k + 342 ≤ n) : Magnitude.bound * 10 ^ k ≤ 10 ^ n := by
  have hbits : Magnitude.bound ≤ 2 ^ (3 * (n - k)) := by
    rw [Magnitude.bound, Nat.pow_le_pow_iff_right (by omega)]
    omega
  have hdigits : 2 ^ (3 * (n - k)) ≤ 10 ^ (n - k) := by
    rw [Nat.pow_mul]
    exact Nat.pow_le_pow_left (by omega) (n - k)
  calc Magnitude.bound * 10 ^ k ≤ 10 ^ (n - k) * 10 ^ k :=
        Nat.mul_le_mul_right _ (hbits.trans hdigits)
    _ = 10 ^ n := by rw [← Nat.pow_add, Nat.sub_add_cancel (by omega)]

/-- Digits alone denote the number nearest to their whole number. -/
lemma Parts.decimalValue_whole (negative : Bool) {t : Text} (h : ∀ b ∈ t, isDigit b) :
    Parts.decimalValue negative ⟨t, [], 0⟩ = .nearest negative (digitsValue 10 t) 1 := by
  have hdigits : Parts.digits ⟨t, [], 0⟩ = t := List.append_nil t
  have hpower : Parts.decimalPower ⟨t, [], 0⟩ = 0 := rfl
  rw [Parts.decimalValue, hdigits, hpower]
  cases hlost : Parts.lostPlaces ⟨t, [], 0⟩ with
  | zero => exact congrArg (Binary64.nearest negative · 1) (Nat.mul_one _)
  | succ k =>
    -- without the lost places the number is infinite, and so it is with them
    have hplaces : k + 800 < (Parts.significant t).length := by
      rw [Parts.lostPlaces] at hlost
      split_ifs at hlost with hfits
      have hlength : (Parts.significant t).length - 800 = k + 1 := hlost
      omega
    have hlarge : 10 ^ (k + 800) ≤ digitsValue 10 t := le_digitsValue h hplaces
    have hreduced : Magnitude.bound * 10 ^ (k + 1) ≤ digitsValue 10 t :=
      (bound_mul_le (by omega)).trans hlarge
    have hwhole : Magnitude.bound * 1 ≤ digitsValue 10 t :=
      (Nat.mul_le_mul_left _ (Nat.one_le_pow _ _ (by omega))).trans hreduced
    rw [Binary64.nearest_eq_infinite negative Nat.one_pos hwhole]
    exact Binary64.nearest_eq_infinite negative (Nat.pow_pos (by omega)) hreduced

/-- Digits are read to their end and have no other parts. -/
lemma readParts?_decimal {t : Text} (h : IsDigitRun t) :
    readParts? decimal t = some ⟨t, [], 0⟩ := by
  have htake : t.takeWhile isDigit = t := List.takeWhile_eq_self_iff.2 h.digit
  have hdrop : t.dropWhile isDigit = [] := List.dropWhile_eq_nil_iff.2 h.digit
  simp only [readParts?, decimal, htake, hdrop, List.append_nil]
  simp [h.ne_nil]

/-- No digit is an underscore. -/
lemma underscoresFit_of_digits {t : Text} (h : ∀ b ∈ t, isDigit b) (behindDigit : Bool) :
    underscoresFit isDigit behindDigit t := by
  induction t generalizing behindDigit with
  | nil => rfl
  | cons b t ih =>
    have hb : (b == 0x5F) = false := by
      have hrange := isDigit_iff.1 (h b (by simp))
      rw [beq_eq_false_iff_ne]
      rintro rfl
      exact absurd hrange (by decide)
    rw [underscoresFit, hb]
    exact ih (fun b' hb' => h b' (by simp [hb'])) _

/-- A digit run is read as a decimal numeral. -/
lemma readDigits?_of_isDigitRun (negative : Bool) {t : Text} (h : IsDigitRun t) :
    readDigits? negative t = some (Parts.decimalValue negative ⟨t, [], 0⟩) := by
  have hstyle : ∀ b r, t ≠ 0x30 :: 0x78 :: b :: r := by
    rintro b r rfl
    exact absurd (h.digit 0x78 (by simp)) (by decide)
  have hfilter : t.filter (· != 0x5F) = t := by
    rw [List.filter_eq_self]
    intro b hb
    have hrange := isDigit_iff.1 (h.digit b hb)
    rw [bne_iff_ne]
    rintro rfl
    exact absurd hrange (by decide)
  have hread := readParts?_decimal h
  have hfit : underscoresFit decimal.isDigit false t = true :=
    underscoresFit_of_digits h.digit false
  rw [readDigits?, if_pos hfit, hfilter, hread]
  · rfl
  · exact hstyle

end Numeral

/-- Reading a digit run gives the number nearest to the whole number it denotes. -/
lemma IsDigitRun.ofText_eq {t : Text} (h : IsDigitRun t) :
    Binary64.ofText t = .nearest false (Numeral.digitsValue 10 t) 1 := by
  have hlower : t.map lowerAscii = t := by
    refine (List.map_congr_left fun b hb => ?_).trans (List.map_id t)
    have hrange := isDigit_iff.1 (h.digit b hb)
    rw [lowerAscii, if_neg, id]
    simp only [Bool.and_eq_true, decide_eq_true_eq, UInt8.le_iff_toNat_le, UInt8.reduceToNat]
    omega
  have hhead (b : UInt8) (u : Text) (hb : isDigit b = false) : t ≠ b :: u := by
    rintro rfl
    have hdigit := h.digit b (by simp)
    rw [hb] at hdigit
    cases hdigit
  have hsign : Numeral.cutSign t = (none, t) := by
    unfold Numeral.cutSign
    split
    · exact absurd rfl (hhead 0x2D _ rfl)
    · exact absurd rfl (hhead 0x2B _ rfl)
    · rfl
  have hinf : t ≠ utf8 "inf" := hhead 0x69 (utf8 "nf") rfl
  have hinfinity : t ≠ utf8 "infinity" := hhead 0x69 (utf8 "nfinity") rfl
  have hnan : t ≠ utf8 "nan" := hhead 0x6E (utf8 "an") rfl
  have hnumeral : Binary64.ofNumeral? t = Numeral.readDigits? false t := by
    rw [Binary64.ofNumeral?, hlower, hsign]
    simp [hinf, hinfinity, hnan]
  rw [Binary64.ofText, hnumeral, Numeral.readDigits?_of_isDigitRun false h, Option.getD_some,
    Numeral.Parts.decimalValue_whole false h.digit]

end ExprLang
