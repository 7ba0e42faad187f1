import ExprLang.Proofs.Number.Grid
import Mathlib.Data.Nat.Size

/-!
# Correct rounding

The magnitude that a quotient is rounded to is the closest one, and of two closest ones the one with
the even mantissa (`Magnitude.isClosest_of_mem_interval`): the magnitudes next to it are at least as
far away as its interval is wide on either side.  Only quotients that lie halfway beyond the largest
magnitude or further have none (`Magnitude.nearest?_eq_none_iff`), and a larger number never has a
smaller magnitude (`Magnitude.toRat_le_of_nearest?`).

The magnitude of a whole number is found by rounding it to 53 bits (`Magnitude.exists_toRat_eq`).
So whole numbers up to `2 ^ 53` are magnitudes themselves (`Magnitude.toRat_of_le`).
-/

namespace ExprLang

/-- A multiple is nearest to itself. -/
lemma isNearest_mul (k : ℕ) {D : ℕ} (hD : 0 < D) : IsNearest (k * D) D k :=
  ⟨by omega, by omega, by omega⟩

/-- What is nearest to a quotient is nearest to it on every scale. -/
lemma IsNearest.mul_right {a D k : ℕ} (h : IsNearest a D k) {c : ℕ} (hc : 0 < c) :
    IsNearest (a * c) (D * c) k := by
  have hle {x y z : ℕ} : 2 * (x * c) ≤ 2 * (y * c) + z * c ↔ 2 * x ≤ 2 * y + z := by
    rw [← Nat.mul_assoc, ← Nat.mul_assoc, ← Nat.add_mul, Nat.mul_le_mul_right_iff hc]
  have hlt {x y z : ℕ} : 2 * (x * c) < 2 * (y * c) + z * c ↔ 2 * x < 2 * y + z := by
    rw [← Nat.mul_assoc, ← Nat.mul_assoc, ← Nat.add_mul, Nat.mul_lt_mul_right hc]
  constructor
  · rw [← Nat.mul_assoc k, hle]
    exact h.le
  · rw [← Nat.mul_assoc k, hle]
    exact h.ge
  · intro hodd
    rw [← Nat.mul_assoc k, hlt, hlt]
    exact h.strict hodd

namespace Magnitude

variable {m m' : Magnitude} {num den n : ℕ} {x : ℚ}

/-! ## Neighbouring magnitudes -/

/-- A magnitude is a multiple of all powers of two up to its gap. -/
lemma two_pow_dvd_units {t : ℕ} (h : t ≤ m.shift) : 2 ^ t ∣ m.units :=
  Dvd.dvd.mul_left (pow_dvd_pow 2 h) m.mantissa

/-- A magnitude is small in comparison to the powers of two above its gap. -/
lemma units_le_of_shift_lt {t : ℕ} (h : m.shift < t) : m.units ≤ 2 ^ 52 * 2 ^ t := by
  calc m.units ≤ 2 ^ 53 * 2 ^ m.shift := Nat.mul_le_mul_right _ m.mantissa_lt.le
    _ = 2 ^ 52 * 2 ^ (m.shift + 1) := by ring
    _ ≤ 2 ^ 52 * 2 ^ t := Nat.mul_le_mul_left _ (Nat.pow_le_pow_right (by omega) h)

/-- A magnitude that is shifted is large in comparison to its gap. -/
lemma le_units (h : 0 < m.shift) : 2 ^ 52 * m.gap ≤ m.units :=
  Nat.mul_le_mul_right _ (le_mantissa h)

/-- A larger magnitude is at least one gap away. -/
lemma units_add_gap_le (h : m.units < m'.units) : m.units + m.gap ≤ m'.units := by
  rcases Nat.lt_or_ge m'.shift m.shift with hlt | hge
  · have hsmall : m'.units ≤ 2 ^ 52 * m.gap := units_le_of_shift_lt hlt
    have hlarge := le_units (m := m) (by omega)
    omega
  · apply Nat.le_of_lt_add_of_dvd (Nat.add_lt_add_right h m.gap)
    · exact (Nat.dvd_add_right (two_pow_dvd_units le_rfl)).2 dvd_rfl
    · exact two_pow_dvd_units hge

/-- A smaller magnitude is at least the gap below away. -/
lemma units_add_gapBelow_le (h : m.units < m'.units) : m.units + m'.gapBelow ≤ m'.units := by
  -- on the scale of the gap below, either both magnitudes are whole or the smaller one is tiny
  have hscale (t : ℕ) (hdvd : 2 ^ t ∣ m'.units)
      (hlarge : m.shift < t → 2 ^ 52 * 2 ^ t + 2 ^ t ≤ m'.units) :
      m.units + 2 ^ t ≤ m'.units := by
    rcases Nat.lt_or_ge m.shift t with hlt | hge
    · exact (Nat.add_le_add_right (units_le_of_shift_lt hlt) _).trans (hlarge hlt)
    · apply Nat.le_of_lt_add_of_dvd (Nat.add_lt_add_right h _) _ hdvd
      exact (Nat.dvd_add_right (two_pow_dvd_units hge)).2 dvd_rfl
  by_cases hleast : m'.mantissa = 2 ^ 52 ∧ 0 < m'.shift
  · obtain ⟨t, ht⟩ : ∃ t, m'.shift = t + 1 := ⟨m'.shift - 1, by omega⟩
    obtain ⟨hunits, -, hbelow⟩ := units_mul_den_of_least hleast.1 ht 1
    rw [Nat.mul_one, Nat.one_mul] at hunits hbelow
    rw [hbelow]
    apply hscale t (two_pow_dvd_units (by omega))
    intro _
    rw [hunits]
    omega
  · rw [gapBelow_of_ne (by omega)]
    apply hscale m'.shift (two_pow_dvd_units le_rfl)
    intro hlt
    have hmantissa : 2 ^ 52 + 1 ≤ m'.mantissa := by
      have hle := le_mantissa (m := m') (by omega)
      omega
    calc 2 ^ 52 * 2 ^ m'.shift + 2 ^ m'.shift = (2 ^ 52 + 1) * 2 ^ m'.shift := by ring
      _ ≤ m'.units := Nat.mul_le_mul_right _ hmantissa

/-- Different magnitudes have different numbers of units. -/
lemma units_injective : Function.Injective units := by
  intro m m' h
  have hm := (nearestUnits?_eq_some_iff Nat.one_pos).2 m.covers_units
  have hm' := (nearestUnits?_eq_some_iff Nat.one_pos).2 m'.covers_units
  rw [h] at hm
  exact Option.some.inj (hm.symm.trans hm')

/-- Different magnitudes are different numbers. -/
lemma toRat_injective : Function.Injective toRat := by
  intro m m' h
  rw [toRat, toRat, div_left_inj' unitsInOne_pos.ne', Nat.cast_inj] at h
  exact units_injective h

/-- Magnitudes are compared by their units. -/
lemma toRat_lt_toRat_iff : m.toRat < m'.toRat ↔ m.units < m'.units := by
  rw [toRat, toRat, div_lt_div_iff_of_pos_right unitsInOne_pos, Nat.cast_lt]

/-! ## The closest magnitude -/

/-- No magnitude is closer to a number, and if another one is equally close, the mantissa is
even. -/
structure IsClosest (m : Magnitude) (x : ℚ) : Prop where
  le : ∀ m' : Magnitude, |m.toRat - x| ≤ |m'.toRat - x|
  even : ∀ m' : Magnitude, m' ≠ m → |m'.toRat - x| = |m.toRat - x| → m.mantissa % 2 = 0

/-- A number that rounds to a magnitude is at most half a gap away, and less if the mantissa is
odd. -/
lemma bounds_of_mem_interval (hx : x ∈ m.interval) :
    (m.low ≤ x ∧ x ≤ m.high) ∧ (m.mantissa % 2 ≠ 0 → m.low < x ∧ x < m.high) := by
  rw [interval] at hx
  split_ifs at hx with heven
  · exact ⟨hx, fun hodd => absurd heven hodd⟩
  · exact ⟨⟨hx.1.le, hx.2.le⟩, fun _ => hx⟩

/-- The middle between a magnitude and a larger one lies at or above the end of the interval. -/
lemma two_mul_high_le (h : m.units < m'.units) : 2 * m.high ≤ m.toRat + m'.toRat := by
  have hgap : (m.units + m.gap : ℚ) ≤ m'.units := by exact_mod_cast units_add_gap_le h
  rw [high, toRat, toRat, ← add_div, ← mul_div_assoc, div_le_div_iff_of_pos_right unitsInOne_pos]
  linarith

/-- The middle between a magnitude and a smaller one lies at or below the end of the interval. -/
lemma le_two_mul_low (h : m'.units < m.units) : m'.toRat + m.toRat ≤ 2 * m.low := by
  have hgap : (m'.units + m.gapBelow : ℚ) ≤ m.units := by exact_mod_cast units_add_gapBelow_le h
  rw [low, toRat, toRat, ← add_div, ← mul_div_assoc, div_le_div_iff_of_pos_right unitsInOne_pos]
  linarith

/-- A number that rounds to a magnitude has no closer one, and lies in the middle between two only
if the mantissa is even. -/
lemma isClosest_of_mem_interval (hx : x ∈ m.interval) : m.IsClosest x := by
  obtain ⟨⟨hlow, hhigh⟩, hstrict⟩ := bounds_of_mem_interval hx
  constructor
  · intro m'
    rcases Nat.lt_trichotomy m.units m'.units with hlt | heq | hgt
    · have hmiddle := two_mul_high_le hlt
      have hrat := toRat_lt_toRat_iff.2 hlt
      exact abs_le_abs (by linarith) (by linarith)
    · rw [units_injective heq]
    · have hmiddle := le_two_mul_low hgt
      have hrat := toRat_lt_toRat_iff.2 hgt
      rw [abs_sub_comm, abs_sub_comm m'.toRat]
      exact abs_le_abs (by linarith) (by linarith)
  · intro m' hne heq
    by_contra hodd
    obtain ⟨hlow', hhigh'⟩ := hstrict hodd
    -- equally far away are only the number itself and its mirror image
    rcases abs_eq_abs.1 heq with hsame | hmirror
    · apply hne
      apply toRat_injective
      linarith
    · rcases Nat.lt_or_gt_of_ne (fun h => hne (units_injective h)) with hlt | hgt
      · have hmiddle := le_two_mul_low hlt
        linarith
      · have hmiddle := two_mul_high_le hgt
        linarith

/-! ## Larger numbers -/

/-- A quotient rounds to one magnitude only. -/
lemma eq_of_mem_interval (hden : 0 < den) (h : (num / den : ℚ) ∈ m.interval)
    (h' : (num / den : ℚ) ∈ m'.interval) : m = m' := by
  rw [← nearest?_eq_some_iff_mem hden] at h h'
  exact Option.some.inj (h.symm.trans h')

/-- A magnitude that rounds to another one is that one. -/
lemma eq_of_toRat_mem_interval (h : m'.toRat ∈ m.interval) : m = m' :=
  eq_of_mem_interval (Nat.two_pow_pos unitBits) h m'.toRat_mem_interval

/-- A whole number rounds to a magnitude exactly if it lies in its interval. -/
lemma nearest?_one_eq_some_iff : nearest? n 1 = some m ↔ (n : ℚ) ∈ m.interval := by
  rw [nearest?_eq_some_iff_mem Nat.one_pos, Nat.cast_one, div_one]

/-- A larger whole number never has a smaller magnitude. -/
lemma toRat_le_of_nearest? {n' : ℕ} (h : nearest? n 1 = some m) (h' : nearest? n' 1 = some m')
    (hle : n ≤ n') : m.toRat ≤ m'.toRat := by
  by_contra hlt
  rw [not_le] at hlt
  rw [nearest?_one_eq_some_iff] at h h'
  have hle' : (n : ℚ) ≤ n' := by exact_mod_cast hle
  -- one of the two intervals holds a number that rounds to both magnitudes
  have heq : m = m' := by
    rcases le_total (n : ℚ) m'.toRat with hn | hn
    · exact eq_of_toRat_mem_interval (mem_interval_of_le_of_le h m.toRat_mem_interval hn hlt.le)
    · have hmem : (n : ℚ) ∈ m'.interval :=
        mem_interval_of_le_of_le m'.toRat_mem_interval h' hn hle'
      have hm := nearest?_one_eq_some_iff.2 h
      exact Option.some.inj (hm.symm.trans (nearest?_one_eq_some_iff.2 hmem))
  rw [heq] at hlt
  exact lt_irrefl _ hlt

/-! ## Numbers without a magnitude -/

/-- Halfway between the largest magnitude and the one that would come next. -/
def overflowBound : ℕ := 2 ^ 1024 - 2 ^ 970

/-- The gap of the largest magnitude. -/
def maxGap : ℕ := 2 ^ maxShift

lemma gap_le_maxGap (m : Magnitude) : m.gap ≤ maxGap :=
  Nat.pow_le_pow_right (by omega) m.canonical.2.1

/-- The overflow bound in units: half a gap above the largest mantissa. -/
lemma two_mul_overflowBound (den : ℕ) :
    2 * (overflowBound * den * 2 ^ unitBits) = (2 ^ 54 - 1) * (maxGap * den) := by
  have hbound : overflowBound = (2 ^ 54 - 1) * 2 ^ 970 := by
    rw [overflowBound, Nat.sub_mul, ← Nat.pow_add, Nat.one_mul]
  have hpow (a b : ℕ) : 2 ^ (a + b + 1) = 2 ^ a * 2 ^ b * 2 := by ring
  have hgap : maxGap = 2 ^ 970 * 2 ^ unitBits * 2 := by
    have hshift : maxShift = 970 + unitBits + 1 := rfl
    rw [← hpow, ← hshift, maxGap]
  have hmul (a b c d : ℕ) : 2 * (a * b * d * c) = a * (b * c * 2 * d) := by ring
  rw [hbound, hgap, hmul]

/-- Parts in canonical form make a magnitude. -/
lemma exists_ofParts?_eq {mantissa shift : ℕ} (hmantissa : mantissa < 2 ^ 53)
    (hshift : shift ≤ maxShift) (hfull : shift = 0 ∨ 2 ^ 52 ≤ mantissa) :
    ∃ m, ofParts? mantissa shift = some m := by
  rw [ofParts?, dif_pos ⟨hmantissa, hshift, hfull⟩]
  exact ⟨_, rfl⟩

/-- The nearest mantissa of a quotient with 53 bits has 53 bits, or carries into one more. -/
lemma bounds_of_isNearest {k s : ℕ} (hden : 0 < den) (hk : IsNearest num (den * 2 ^ s) k)
    (hlower : s = 0 ∨ 2 ^ 52 * (den * 2 ^ s) ≤ num) (hupper : num < 2 ^ 53 * (den * 2 ^ s)) :
    k ≤ 2 ^ 53 ∧ (s = 0 ∨ 2 ^ 52 ≤ k) := by
  have hscale : 0 < den * 2 ^ s := by positivity
  obtain ⟨hle, hge, -⟩ := hk
  generalize den * 2 ^ s = D at *
  constructor
  · by_contra hlt
    have hmul : (2 ^ 53 + 1) * D ≤ k * D := Nat.mul_le_mul_right D (by omega)
    omega
  · apply hlower.imp_right
    intro hnum
    by_contra hlt
    have hmul : (k + 1) * D ≤ 2 ^ 52 * D := Nat.mul_le_mul_right D (by omega)
    rw [Nat.succ_mul] at hmul
    omega

/-- A quotient has at most 53 bits on the scale of its shift. -/
lemma lt_of_shift_eq {s : ℕ} (hden : 0 < den) (hs : Nat.log2 (num / den) - 52 = s) :
    num < 2 ^ 53 * (den * 2 ^ s) := by
  have hquotient : num / den < 2 ^ (s + 53) :=
    Nat.lt_log2_self.trans_le (Nat.pow_le_pow_right (by omega) (by omega))
  calc num < 2 ^ (s + 53) * den := (Nat.div_lt_iff_lt_mul hden).1 hquotient
    _ = 2 ^ 53 * (den * 2 ^ s) := by ring

/-- A quotient below the overflow bound has a magnitude. -/
lemma exists_nearest?_eq (hden : 0 < den) (h : num < overflowBound * den) :
    ∃ m, nearest? num den = some m := by
  rw [nearest?, Nat.pow_eq]
  have hunits : 2 * (num * 2 ^ unitBits) < (2 ^ 54 - 1) * (maxGap * den) := by
    have hlt := Nat.mul_lt_mul_of_pos_right h (Nat.two_pow_pos unitBits)
    rw [← two_mul_overflowBound]
    exact Nat.mul_lt_mul_of_pos_left hlt (by omega)
  generalize num * 2 ^ unitBits = N at *
  generalize hs : Nat.log2 (N / den) - 52 = s
  have hlower : s = 0 ∨ 2 ^ 52 * (den * 2 ^ s) ≤ N := by
    rcases Nat.eq_zero_or_pos s with hzero | hpos
    · exact .inl hzero
    · rw [← hs] at hpos ⊢
      exact .inr (le_of_shift_pos hden hpos)
  have hupper : N < 2 ^ 53 * (den * 2 ^ s) := lt_of_shift_eq hden hs
  have hk : IsNearest N (den * 2 ^ s) (roundDiv N (den * 2 ^ s)) :=
    isNearest_roundDiv N (by positivity)
  obtain ⟨hle, hfull⟩ := bounds_of_isNearest hden hk hlower hupper
  rw [nearestUnits?_of_isNearest hden hs hk]
  generalize roundDiv N (den * 2 ^ s) = k at *
  -- the shift is at most the largest one, and the mantissa does not carry there
  have hshift : s ≤ maxShift := by
    by_contra hlt
    have hgap : den * (2 * maxGap) ≤ den * 2 ^ s := by
      apply Nat.mul_le_mul_left
      rw [maxGap, ← Nat.pow_succ']
      exact Nat.pow_le_pow_right (by omega) (by omega)
    have hnum := hlower.resolve_left (by omega)
    rw [Nat.mul_left_comm, Nat.mul_comm den] at hgap
    omega
  have hlast : k = 2 ^ 53 → s ≠ maxShift := by
    rintro hcarry rfl
    have hnum := hk.le
    rw [hcarry, ← maxGap, Nat.mul_comm den] at hnum
    omega
  split_ifs with hcarry
  · exact exists_ofParts?_eq (by omega) (by omega) (.inr le_rfl)
  · exact exists_ofParts?_eq (by omega) (by omega) hfull

/-- A covered quotient lies below the overflow bound. -/
lemma Covers.lt_overflowBound (hden : 0 < den) (h : m.Covers (num * 2 ^ unitBits) den) :
    num < overflowBound * den := by
  have hunits : m.units * den = m.mantissa * (m.gap * den) := by rw [units_eq, Nat.mul_assoc]
  have hgap : m.gap * den ≤ maxGap * den := Nat.mul_le_mul_right den m.gap_le_maxGap
  have hpos : 0 < maxGap * den := Nat.mul_pos (Nat.two_pow_pos maxShift) hden
  have hmantissa := m.mantissa_lt
  obtain ⟨-, hupper, hstrict⟩ := h
  have hlt : 2 * (num * 2 ^ unitBits) < (2 ^ 54 - 1) * (maxGap * den) := by
    rw [hunits] at hupper hstrict
    rcases Nat.mod_two_eq_zero_or_one m.mantissa with heven | hodd
    · have hmul : m.mantissa * (m.gap * den) ≤ (2 ^ 53 - 2) * (maxGap * den) :=
        Nat.mul_le_mul (by omega) hgap
      omega
    · have hmul : m.mantissa * (m.gap * den) ≤ (2 ^ 53 - 1) * (maxGap * den) :=
        Nat.mul_le_mul (by omega) hgap
      have hnum := (hstrict hodd).2
      omega
  rw [← two_mul_overflowBound] at hlt
  exact Nat.lt_of_mul_lt_mul_right (Nat.lt_of_mul_lt_mul_left hlt)

/-- Exactly the quotients from the overflow bound on have no magnitude. -/
lemma nearest?_eq_none_iff (hden : 0 < den) :
    nearest? num den = none ↔ overflowBound * den ≤ num := by
  constructor
  · intro h
    by_contra hlt
    obtain ⟨m, hm⟩ := exists_nearest?_eq hden (Nat.lt_of_not_le hlt)
    rw [h] at hm
    cases hm
  · intro h
    apply Option.eq_none_iff_forall_ne_some.2
    intro m hm
    exact Nat.not_lt_of_le h (((nearest?_eq_some_iff hden).1 hm).lt_overflowBound hden)

/-- Exactly the whole numbers from the overflow bound on have no magnitude. -/
lemma nearest?_one_eq_none_iff : nearest? n 1 = none ↔ overflowBound ≤ n := by
  rw [nearest?_eq_none_iff Nat.one_pos, Nat.mul_one]

/-! ## Whole numbers -/

/-- The magnitude of a quotient is its nearest mantissa, shifted. -/
lemma units_of_nearestUnits? {k s : ℕ} (hden : 0 < den) (hs : Nat.log2 (num / den) - 52 = s)
    (hk : IsNearest num (den * 2 ^ s) k) (h : nearestUnits? num den = some m) :
    m.units = k * 2 ^ s := by
  rw [nearestUnits?_of_isNearest hden hs hk] at h
  split_ifs at h with hcarry
  · obtain ⟨hmantissa, hshift⟩ := ofParts?_eq_some_iff.1 h
    rw [units_eq, gap, hmantissa, hshift, hcarry]
    ring
  · obtain ⟨rfl, rfl⟩ := ofParts?_eq_some_iff.1 h
    rfl

/-- A magnitude of whole units is a whole number. -/
lemma toRat_of_units {a : ℕ} (h : m.units = a * unitsInOne) : m.toRat = a := by
  rw [toRat, h, Nat.cast_mul, mul_div_cancel_right₀ _ unitsInOne_pos.ne']

lemma nearest?_eq_nearestUnits? (num den : ℕ) :
    nearest? num den = nearestUnits? (num * unitsInOne) den := by
  rw [nearest?, Nat.pow_eq, unitsInOne]

/-- A whole number with at most 53 bits has none to lose. -/
lemma toRat_of_size_le (h : nearest? n 1 = some m) (hsize : n.size ≤ 53) : m.toRat = n := by
  apply toRat_of_units
  rw [nearest?_eq_nearestUnits?] at h
  generalize hs : Nat.log2 (n * unitsInOne / 1) - 52 = s
  have hle : s ≤ unitBits := by
    by_contra hlt
    have hnum : 2 ^ 52 * (1 * 2 ^ (Nat.log2 (n * unitsInOne / 1) - 52)) ≤ n * unitsInOne :=
      le_of_shift_pos Nat.one_pos (by omega)
    have hpow : unitsInOne * 2 ≤ 1 * 2 ^ s := by
      rw [unitsInOne, ← Nat.pow_succ, Nat.one_mul]
      exact Nat.pow_le_pow_right (by omega) (by omega)
    have hupper : n * unitsInOne < 2 ^ 53 * unitsInOne :=
      Nat.mul_lt_mul_of_pos_right (Nat.size_le.1 hsize) (Nat.two_pow_pos unitBits)
    rw [hs] at hnum
    omega
  obtain ⟨k, hk⟩ : 2 ^ s ∣ n * unitsInOne := Dvd.dvd.mul_left (pow_dvd_pow 2 hle) n
  rw [Nat.mul_comm (2 ^ s)] at hk
  have hnearest : IsNearest (n * unitsInOne) (1 * 2 ^ s) k := by
    rw [hk, Nat.one_mul]
    exact isNearest_mul k (Nat.two_pow_pos s)
  rw [units_of_nearestUnits? Nat.one_pos hs hnearest h, hk]

/-- A whole number with more bits is rounded to its first 53 bits. -/
lemma toRat_of_size_eq (h : nearest? n 1 = some m) {e q : ℕ} (he : n.size = e + 53)
    (hq : IsNearest n (2 ^ e) q) : m.toRat = q * 2 ^ e := by
  have hU : 0 < unitsInOne := Nat.two_pow_pos unitBits
  have hlower : 2 ^ (e + 52) ≤ n := Nat.lt_size.1 (by omega)
  have hupper : n < 2 ^ (e + 53) := he ▸ Nat.lt_size_self n
  have hscale : 2 ^ (e + unitBits) = 2 ^ e * unitsInOne := by rw [Nat.pow_add, unitsInOne]
  have hpow (k : ℕ) : 2 ^ k * (1 * 2 ^ (e + unitBits)) = 2 ^ (e + k) * unitsInOne := by
    rw [hscale]
    ring
  have hs : Nat.log2 (n * unitsInOne / 1) - 52 = e + unitBits := by
    apply shift_eq Nat.one_pos
    · rw [hpow]
      exact .inr (Nat.mul_le_mul_right _ hlower)
    · rw [hpow]
      exact Nat.mul_lt_mul_of_pos_right hupper hU
  have hnearest : IsNearest (n * unitsInOne) (1 * 2 ^ (e + unitBits)) q := by
    rw [Nat.one_mul, hscale]
    exact hq.mul_right hU
  have hunits : m.units = q * 2 ^ e * unitsInOne := by
    rw [nearest?_eq_nearestUnits?] at h
    rw [units_of_nearestUnits? Nat.one_pos hs hnearest h, hscale, Nat.mul_assoc]
  rw [toRat_of_units hunits, Nat.cast_mul, Nat.cast_pow, Nat.cast_ofNat]

/-- The magnitude of a whole number is the number rounded to 53 bits. -/
lemma exists_toRat_eq (h : nearest? n 1 = some m) :
    ∃ q, IsNearest n (2 ^ (n.size - 53)) q ∧ m.toRat = q * 2 ^ (n.size - 53) := by
  rcases Nat.le_total n.size 53 with hsmall | hlarge
  · rw [Nat.sub_eq_zero_of_le hsmall]
    refine ⟨n, ?_, ?_⟩
    · have hself := isNearest_mul n Nat.one_pos
      rwa [Nat.mul_one] at hself
    · rw [toRat_of_size_le h hsmall, pow_zero, mul_one]
  · have hq := isNearest_roundDiv n (Nat.two_pow_pos (n.size - 53))
    exact ⟨_, hq, toRat_of_size_eq h (Nat.sub_add_cancel hlarge).symm hq⟩

/-- Whole numbers up to `2 ^ 53` are magnitudes themselves. -/
lemma toRat_of_le (h : nearest? n 1 = some m) (hn : n ≤ 2 ^ 53) : m.toRat = n := by
  rcases hn.lt_or_eq with hlt | rfl
  · exact toRat_of_size_le h (Nat.size_le.2 hlt)
  · have hself := isNearest_mul (2 ^ 52) (Nat.two_pow_pos 1)
    rw [toRat_of_size_eq h (e := 1) (by rw [Nat.size_pow]) hself]
    norm_num

end Magnitude

end ExprLang
