import ExprLang.Proofs.Number.DigitRun
import ExprLang.Tree.Canonical

/-!
# Shortest decimals of whole numbers

Whole numbers are found on the grids of whole steps: grid `gridOffset` holds the number itself, so
the search for its shortest decimal ends there at the latest, and the multiple that it finds rounds
back to the magnitude (`Magnitude.searchGrids_of_whole`).  Written positionally, such a decimal is
the numeral of the multiple and a zero for each further place (`Decimal.positional_scaled`), which is
again the numeral of a whole number (`Binary64.plain_of_whole`).  So the plain form of the number that
a digit run denotes is a digit run, and reading that gives the same number (`IsDigitRun.plain`).
-/

namespace ExprLang

/-! ## The search on the grids -/

namespace Magnitude

variable {m : Magnitude}

/-- The number of fine units in a quarter of a unit. -/
def fineScale : ℕ := 10 ^ gridOffset

lemma fineScale_pos : 0 < fineScale := Nat.pow_pos (by omega)

lemma fine_eq (m : Magnitude) : m.fine = 4 * m.units * fineScale := by
  rw [fine, fineScale, Nat.pow_eq]

lemma above_eq (m : Magnitude) : m.above = 2 * m.gap * fineScale := by
  rw [above, fineScale, gap, Nat.pow_eq, Nat.pow_eq]

lemma below_eq (m : Magnitude) : m.below = 2 * m.gapBelow * fineScale := by
  have hbits : mantissaBits - 1 = 52 := rfl
  rw [below, hbits, Nat.pow_eq]
  by_cases hleast : m.mantissa = 2 ^ 52 ∧ 0 < m.shift
  · obtain ⟨s, hs⟩ : ∃ s, m.shift = s + 1 := ⟨m.shift - 1, by omega⟩
    rw [if_pos hleast, gapBelow, if_pos hleast, fineScale, hs, Nat.add_sub_cancel,
      Nat.pow_eq, Nat.pow_eq, Nat.pow_succ, Nat.mul_comm 2 (2 ^ s)]
  · rw [if_neg hleast, above_eq, gapBelow_of_ne (by omega)]

lemma gridStep_pos (j : ℕ) : 0 < gridStep j := by
  rw [gridStep, Nat.pow_eq, Nat.pow_eq]
  positivity

/-- The steps of the grids of whole numbers. -/
lemma mul_gridStep (d e : ℕ) :
    d * gridStep (gridOffset + e) = 4 * (d * 10 ^ e * 2 ^ unitBits) * fineScale := by
  rw [gridStep, Nat.pow_eq, Nat.pow_eq, Nat.pow_add, Nat.pow_add, ← fineScale]
  generalize 2 ^ unitBits = unit
  ring

/-- A number of units rounds to a magnitude if the magnitude covers it. -/
lemma roundsFrom_iff (m : Magnitude) (u : ℕ) :
    m.roundsFrom (4 * u * fineScale) ↔ m.Covers u 1 := by
  have hle (a b c : ℕ) :
      4 * a * fineScale ≤ 4 * b * fineScale + 2 * c * fineScale ↔ 2 * a ≤ 2 * b + c := by
    rw [← Nat.add_mul, Nat.mul_le_mul_right_iff fineScale_pos]
    omega
  have hlt (a b c : ℕ) :
      4 * a * fineScale < 4 * b * fineScale + 2 * c * fineScale ↔ 2 * a < 2 * b + c := by
    rw [← Nat.add_mul, Nat.mul_lt_mul_right fineScale_pos]
    omega
  rw [roundsFrom, fine_eq, below_eq, above_eq]
  split_ifs with heven
  · simp only [Bool.and_eq_true, decide_eq_true_eq, hle]
    constructor
    · rintro ⟨hl, hu⟩
      exact ⟨by omega, by omega, by omega⟩
    · intro h
      exact ⟨by simpa using h.lower, by simpa using h.upper⟩
  · simp only [Bool.and_eq_true, decide_eq_true_eq, hlt]
    constructor
    · rintro ⟨hl, hu⟩
      exact ⟨by omega, by omega, by omega⟩
    · intro h
      simpa using h.strict (by omega)

/-- A magnitude covers its own units. -/
lemma covers_units (m : Magnitude) : m.Covers m.units 1 := by
  have hgap : 0 < m.gap := Nat.two_pow_pos m.shift
  have hbelow : 0 < m.gapBelow := by
    rw [gapBelow]
    split_ifs <;> exact Nat.two_pow_pos _
  exact ⟨by omega, by omega, by omega⟩

/-- A multiple that is found on a grid rounds to the magnitude. -/
lemma roundsFrom_of_onGrid? {j d : ℕ} (h : m.onGrid? j = some d) :
    m.roundsFrom (d * gridStep j) := by
  simp only [onGrid?] at h
  generalize hdown : m.roundsFrom (m.fine / gridStep j * gridStep j) = down at h
  generalize hup : m.roundsFrom ((m.fine / gridStep j + 1) * gridStep j) = up at h
  match down, up with
  | true, true =>
    -- the nearest multiple is one of the two neighbours
    obtain rfl := Option.some.inj h
    simp only [roundDiv]
    split_ifs
    · exact hdown
    · exact hup
  | true, false =>
    obtain rfl := Option.some.inj h
    exact hdown
  | false, true =>
    obtain rfl := Option.some.inj h
    exact hup
  | false, false => cases h

/-- A whole number is a multiple of the step of grid `gridOffset`. -/
lemma fine_of_whole {k : ℕ} (hk : m.units = k * 2 ^ unitBits) :
    m.fine = k * gridStep gridOffset := by
  have hstep := mul_gridStep k 0
  rw [Nat.pow_zero, Nat.mul_one, ← hk, ← fine_eq] at hstep
  exact hstep.symm

/-- A whole number is found on the grid of step one. -/
lemma onGrid?_of_whole {k : ℕ} (hk : m.units = k * 2 ^ unitBits) :
    m.onGrid? gridOffset = some k := by
  have hfine := fine_of_whole hk
  have hself : m.roundsFrom m.fine := by
    rw [fine_eq]
    exact (roundsFrom_iff m m.units).2 m.covers_units
  have hpos := gridStep_pos gridOffset
  have hquotient : m.fine / gridStep gridOffset = k := by
    rw [hfine, Nat.mul_div_cancel k hpos]
  have hnearest : roundDiv m.fine (gridStep gridOffset) = k := by
    rw [roundDiv_eq_iff hpos, hfine]
    exact ⟨by omega, by omega, by omega⟩
  simp only [onGrid?, hquotient, hnearest]
  rw [← hfine, hself]
  generalize m.roundsFrom ((k + 1) * gridStep gridOffset) = up
  cases up <;> rfl

/-- A whole number other than zero is positive. -/
lemma pos_of_units_eq {k : ℕ} (hk : m.units = k * 2 ^ unitBits) (hm : m.mantissa ≠ 0) : 0 < k := by
  rw [Nat.pos_iff_ne_zero]
  rintro rfl
  rw [Nat.zero_mul] at hk
  exact Nat.mul_ne_zero hm (Nat.two_pow_pos m.shift).ne' hk

/-- The search ends on the first grid that holds a multiple. -/
lemma searchGrids_of_some {j d : ℕ} (h : m.onGrid? (j + 1) = some d) :
    m.searchGrids (j + 1) = (d, j + 1) := by
  rw [searchGrids, h]

/-- The search goes on to the next finer grid if there is no multiple. -/
lemma searchGrids_of_none {j : ℕ} (h : m.onGrid? (j + 1) = none) :
    m.searchGrids (j + 1) = m.searchGrids j := by
  rw [searchGrids, h]

/-- The search for a whole number finds a whole number that rounds to it, on the grid of step one the
number itself. -/
lemma searchGrids_of_whole {k : ℕ} (hk : m.units = k * 2 ^ unitBits) (e : ℕ) :
    ∃ d e', m.searchGrids (gridOffset + e) = (d, gridOffset + e') ∧
      nearest? (d * 10 ^ e') 1 = some m ∧ (e' = 0 → d = k) := by
  have hfound {d e' : ℕ} (h : m.onGrid? (gridOffset + e') = some d) :
      nearest? (d * 10 ^ e') 1 = some m := by
    have hrounds := roundsFrom_of_onGrid? h
    rw [mul_gridStep, roundsFrom_iff] at hrounds
    exact (nearest?_eq_some_iff Nat.one_pos).2 hrounds
  induction e with
  | zero =>
    have hgrid := onGrid?_of_whole hk
    exact ⟨k, 0, searchGrids_of_some hgrid, hfound hgrid, fun _ => rfl⟩
  | succ e ih =>
    cases hgrid : m.onGrid? (gridOffset + e + 1) with
    | some d => exact ⟨d, e + 1, searchGrids_of_some hgrid, hfound hgrid, by simp⟩
    | none =>
      rw [← Nat.add_assoc, searchGrids_of_none hgrid]
      exact ih

end Magnitude

namespace Decimal

open Magnitude

/-- The search for a whole number starts on a grid of whole steps. -/
lemma le_topPower {n : ℕ} (h : fineScale ≤ n) : gridOffset ≤ topPower n := by
  rw [fineScale] at h
  have hlog (k j : ℕ) (hj : j = 25 * k) (hn : 10 ^ j ≤ n) : 83 * k ≤ n.log2 := by
    have hbits : 2 ^ (83 * k) ≤ 10 ^ j := by
      rw [hj, Nat.pow_mul, Nat.pow_mul]
      exact Nat.pow_le_pow_left (by omega) k
    have hpos : 0 < 10 ^ j := Nat.pow_pos (by omega)
    exact (Nat.le_log2 (hpos.trans_le hn).ne').2 (hbits.trans hn)
  have hlog := hlog 16 gridOffset rfl h
  rw [topPower]
  split_ifs with hguess
  · have hlt : 10 ^ gridOffset < 10 ^ (n.log2 * 30102 / 100000 + 1) := h.trans_lt hguess
    rw [Nat.pow_lt_pow_iff_right (by norm_num)] at hlt
    omega
  · have hoffset : gridOffset = 400 := rfl
    omega

/-- The shortest decimal of a whole number other than zero is a whole number that rounds to it. -/
lemma shortest_of_whole {m : Magnitude} {k : ℕ} (hk : m.units = k * 2 ^ unitBits) (hpos : 0 < k) :
    ∃ d e : ℕ, shortest m = scaled d e ∧ nearest? (d * 10 ^ e) 1 = some m ∧ (e = 0 → d = k) := by
  have hquotient : m.fine / gridStep 0 = k * fineScale := by
    have hstep : gridStep gridOffset = fineScale * gridStep 0 := by
      rw [gridStep, gridStep, Nat.pow_eq, Nat.pow_eq, Nat.pow_eq, Nat.pow_zero, Nat.one_mul,
        fineScale]
    rw [fine_of_whole hk, hstep, ← Nat.mul_assoc, Nat.mul_div_cancel _ (gridStep_pos 0)]
  have htop : gridOffset ≤ topPower (k * fineScale) := le_topPower (Nat.le_mul_of_pos_left _ hpos)
  obtain ⟨e, he⟩ := Nat.exists_eq_add_of_le htop
  obtain ⟨d, e', hsearch, hnearest⟩ := searchGrids_of_whole hk e
  refine ⟨d, e', ?_, hnearest⟩
  simp only [shortest, hquotient, he, hsearch]
  congr 1
  omega

/-- Digits without the zeros at their end, and these zeros. -/
lemma trimmed_append (digits : List Char) :
    (digits.reverse.dropWhile (· == '0')).reverse ++
        List.replicate (digits.length - (digits.reverse.dropWhile (· == '0')).length) '0' =
      digits := by
  have hsplit := List.takeWhile_append_dropWhile (p := (· == '0')) (l := digits.reverse)
  have hlength := congrArg List.length hsplit
  rw [List.length_append, List.length_reverse] at hlength
  have hzeros : digits.reverse.takeWhile (· == '0') =
      List.replicate (digits.length - (digits.reverse.dropWhile (· == '0')).length) '0' := by
    refine List.eq_replicate_iff.2 ⟨by omega, fun c hc => ?_⟩
    simpa using List.mem_takeWhile_imp hc
  rw [← List.reverse_replicate, ← hzeros, ← List.reverse_append, hsplit, List.reverse_reverse]

/-- A whole number is written as its digits and the zeros of its power of ten. -/
lemma positional_scaled (n e : ℕ) :
    (scaled n e).positional = Nat.toDigits 10 n ++ List.replicate e '0' := by
  have hpos : 0 < (Nat.toDigits 10 n).length := Nat.length_toDigits_pos
  have htrimmed := trimmed_append (Nat.toDigits 10 n)
  generalize hdigits : Nat.toDigits 10 n = digits at *
  have hle : (digits.reverse.dropWhile (· == '0')).length ≤ digits.length := by
    have hsublist := List.dropWhile_sublist (· == '0') (l := digits.reverse)
    simpa using hsublist.length_le
  simp only [scaled, hdigits, positional]
  rw [if_neg (by omega), if_neg (by simp; omega)]
  have hplaces : ((digits.length : ℤ) + (e : ℤ)).toNat -
      ((digits.reverse.dropWhile (· == '0')).reverse).length =
      digits.length - (digits.reverse.dropWhile (· == '0')).length + e := by
    rw [List.length_reverse]
    omega
  rw [hplaces, List.replicate_add, ← List.append_assoc, htrimmed]

end Decimal

/-! ## The plain form of a whole number -/

/-- Zeros behind digits multiply what they spell by a power of ten. -/
lemma ofDigitChars_replicate_zero (n e : ℕ) :
    Nat.ofDigitChars 10 (List.replicate e '0') n = n * 10 ^ e := by
  induction e generalizing n with
  | zero => exact (Nat.mul_one n).symm
  | succ e ih =>
    rw [List.replicate_succ, Nat.ofDigitChars_cons, ih, Nat.sub_self, Nat.pow_succ]
    ring

/-- Zeros behind the numeral of a positive number make the numeral of a multiple by a power of
ten. -/
lemma toDigits_mul_pow {n : ℕ} (hn : 0 < n) (e : ℕ) :
    Nat.toDigits 10 (n * 10 ^ e) = Nat.toDigits 10 n ++ List.replicate e '0' := by
  induction e with
  | zero => simp
  | succ e ih =>
    have hpos : 0 < n * 10 ^ e := by positivity
    have hlast := Nat.toDigits_append_toDigits (b := 10) (d := 0) (by omega) hpos (by omega)
    have hmul : n * 10 ^ (e + 1) = 10 * (n * 10 ^ e) + 0 := by ring
    rw [hmul, ← hlast, ih, List.append_assoc, List.replicate_succ']
    rfl

/-- A numeral is a digit run, and denotes its number. -/
lemma isDigitRun_ofNat (n : ℕ) :
    IsDigitRun (Text.ofNat n) ∧ Numeral.digitsValue 10 (Text.ofNat n) = n := by
  have hdigit : ∀ c ∈ Nat.toDigits 10 n, c.isDigit := by
    intro c hc
    exact Nat.isDigit_of_mem_toDigits (by omega) le_rfl hc
  refine ⟨isDigitRun_ofChars Nat.toDigits_ne_nil hdigit, ?_⟩
  rw [Text.ofNat, Numeral.digitsValue_ofChars hdigit, Nat.ofDigitChars_toDigits (by omega) le_rfl]

namespace Binary64

/-- The plain form of a whole number is the numeral of a whole number that rounds to it: of the number
itself, unless that numeral ends in a zero. -/
lemma plain_of_whole {m : Magnitude} {k : ℕ} (hk : m.units = k * 2 ^ unitBits) :
    ∃ n : ℕ, plain (.finite false m) = Text.ofNat n ∧ Magnitude.nearest? n 1 = some m ∧
      (n = k ∨ 10 ∣ n) := by
  by_cases hzero : m.mantissa = 0
  · have hunits : m.units = 0 := by rw [Magnitude.units_eq, hzero, Nat.zero_mul]
    refine ⟨0, ?_, ?_, .inr (dvd_zero 10)⟩
    · rw [plain, Layout.text, Layout.digits, if_pos hzero]
      rfl
    · rw [Magnitude.nearest?_eq_some_iff Nat.one_pos, Nat.zero_mul, ← hunits]
      exact m.covers_units
  · have hunits : m.units ≠ 0 := Nat.mul_ne_zero hzero (Nat.two_pow_pos m.shift).ne'
    obtain ⟨n, e, hshortest, hnearest, hself⟩ :=
      Decimal.shortest_of_whole hk (Magnitude.pos_of_units_eq hk hzero)
    have hn : 0 < n := by
      rw [Nat.pos_iff_ne_zero]
      rintro rfl
      have hcovers := (Magnitude.nearest?_eq_some_iff Nat.one_pos).1 hnearest
      rw [Nat.zero_mul, Nat.zero_mul] at hcovers
      exact hunits (hcovers.units_eq_of_dvd (dvd_zero _))
    refine ⟨n * 10 ^ e, ?_, hnearest, ?_⟩
    · rw [plain, Layout.text, Layout.digits, if_neg hzero, hshortest, Text.ofNat,
        toDigits_mul_pow hn]
      exact congrArg Text.ofChars (Decimal.positional_scaled n e)
    · rcases Nat.eq_zero_or_pos e with rfl | he
      · exact .inl (by rw [hself rfl, Nat.pow_zero, Nat.mul_one])
      · exact .inr (Dvd.dvd.mul_left (dvd_pow_self 10 he.ne') n)

end Binary64

/-- The finite numbers that digit runs denote are whole numbers without a sign. -/
lemma IsDigitRun.exists_magnitude {t : Text} (h : IsDigitRun t) {negative : Bool} {m : Magnitude}
    (hfinite : Binary64.ofText t = .finite negative m) :
    negative = false ∧ ∃ k, m.units = k * 2 ^ unitBits := by
  rw [h.ofText_eq, Binary64.nearest] at hfinite
  cases hnearest : Magnitude.nearest? (Numeral.digitsValue 10 t) 1 with
  | none =>
    rw [hnearest] at hfinite
    cases hfinite
  | some m' =>
    rw [hnearest] at hfinite
    obtain ⟨rfl, rfl⟩ := Binary64.finite.inj hfinite
    exact ⟨rfl, Magnitude.exists_units_eq_of_nearest? hnearest⟩

/-- A finite number that a digit run denotes is printed as a digit run that denotes the same
number. -/
lemma IsDigitRun.plain {t : Text} (h : IsDigitRun t) {negative : Bool} {m : Magnitude}
    (hfinite : Binary64.ofText t = .finite negative m) :
    IsDigitRun (Binary64.plain (.finite negative m)) ∧
      Binary64.ofText (Binary64.plain (.finite negative m)) = .finite negative m := by
  obtain ⟨rfl, k, hk⟩ := h.exists_magnitude hfinite
  obtain ⟨n, hplain, hnearest, -⟩ := Binary64.plain_of_whole hk
  obtain ⟨hrun, hvalue⟩ := isDigitRun_ofNat n
  rw [hplain]
  refine ⟨hrun, ?_⟩
  rw [hrun.ofText_eq, hvalue, Binary64.nearest, hnearest, Option.elim_some]

end ExprLang
