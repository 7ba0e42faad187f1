import ExprLang.Proofs.Number.Shortest
import Mathlib.Algebra.Order.Field.Power
import Mathlib.Data.Rat.Cast.Order
import Mathlib.Order.Interval.Set.OrdConnected
import Mathlib.Tactic.FieldSimp
import Mathlib.Tactic.Linarith

/-!
# Shortest decimals of magnitudes

The rational numbers that round to a magnitude are its interval (`Magnitude.interval`), closed if the
mantissa is even and open if it is odd: reading `n * 10 ^ e` gives a magnitude exactly if that number
lies in the interval (`Numeral.scale_eq_finite_iff`).  The points of grid `j` are the multiples of
`10 ^ (j - gridOffset)`, and a grid is hit if one of its points lies in the interval.

`Magnitude.Hit` says what the search on the grids finds for any magnitude: a point in the interval,
next to the magnitude, on the coarsest grid that is hit.  So the shortest decimal of a magnitude lies
in its interval (`Decimal.toRat_shortest_mem`), and no decimal in the interval has fewer digits
(`Decimal.length_digits_shortest_le`).
-/

namespace ExprLang

namespace Magnitude

variable {m : Magnitude} {num den j n : ℕ} {x y z : ℚ}

/-! ## The interval of a magnitude among the rational numbers -/

/-- The number of units in one. -/
def unitsInOne : ℕ := 2 ^ unitBits

lemma unitsInOne_pos : (0 : ℚ) < unitsInOne := by
  exact_mod_cast Nat.two_pow_pos unitBits

/-- A magnitude as a rational number. -/
def toRat (m : Magnitude) : ℚ := m.units / unitsInOne

/-- A magnitude without a mantissa is zero. -/
lemma toRat_of_mantissa_eq_zero (h : m.mantissa = 0) : m.toRat = 0 := by
  rw [toRat, units_eq, h, Nat.zero_mul, Nat.cast_zero, zero_div]

/-- Halfway to the magnitude below. -/
def low (m : Magnitude) : ℚ := (m.units - m.gapBelow / 2) / unitsInOne

/-- Halfway to the magnitude above. -/
def high (m : Magnitude) : ℚ := (m.units + m.gap / 2) / unitsInOne

/-- The rational numbers that round to a magnitude. -/
def interval (m : Magnitude) : Set ℚ :=
  if m.mantissa % 2 = 0 then Set.Icc m.low m.high else Set.Ioo m.low m.high

/-- What lies between two numbers that round to a magnitude rounds to it. -/
lemma ordConnected_interval (m : Magnitude) : m.interval.OrdConnected := by
  rw [interval]
  split_ifs
  · exact Set.ordConnected_Icc
  · exact Set.ordConnected_Ioo

lemma mem_interval_of_le_of_le (hx : x ∈ m.interval) (hz : z ∈ m.interval) (hxy : x ≤ y)
    (hyz : y ≤ z) : y ∈ m.interval :=
  m.ordConnected_interval.out hx hz ⟨hxy, hyz⟩

lemma gap_pos (m : Magnitude) : 0 < m.gap := Nat.two_pow_pos m.shift

lemma gapBelow_pos (m : Magnitude) : 0 < m.gapBelow := by
  rw [gapBelow]
  split_ifs <;> exact Nat.two_pow_pos _

lemma toRat_mem_interval (m : Magnitude) : m.toRat ∈ m.interval := by
  have hgap : (0 : ℚ) < m.gap := by exact_mod_cast m.gap_pos
  have hbelow : (0 : ℚ) < m.gapBelow := by exact_mod_cast m.gapBelow_pos
  have hlow : m.low < m.toRat := div_lt_div_of_pos_right (by linarith) unitsInOne_pos
  have hhigh : m.toRat < m.high := div_lt_div_of_pos_right (by linarith) unitsInOne_pos
  rw [interval]
  split_ifs
  · exact ⟨hlow.le, hhigh.le⟩
  · exact ⟨hlow, hhigh⟩

/-- A magnitude covers a quotient exactly if that lies in its interval. -/
lemma mem_interval_iff_covers (hden : 0 < den) :
    (num / den : ℚ) ∈ m.interval ↔ m.Covers (num * 2 ^ unitBits) den := by
  have hden' : (0 : ℚ) < den := by exact_mod_cast hden
  have hunit := unitsInOne_pos
  rw [← unitsInOne]
  have hlow_le : m.low ≤ num / den ↔
      2 * (m.units * den) ≤ 2 * (num * unitsInOne) + m.gapBelow * den := by
    rw [low, div_le_div_iff₀ hunit hden', ← @Nat.cast_le ℚ]
    push_cast
    constructor <;> intro h <;> linarith
  have hlow_lt : m.low < num / den ↔
      2 * (m.units * den) < 2 * (num * unitsInOne) + m.gapBelow * den := by
    rw [low, div_lt_div_iff₀ hunit hden', ← @Nat.cast_lt ℚ]
    push_cast
    constructor <;> intro h <;> linarith
  have hhigh_le : num / den ≤ m.high ↔
      2 * (num * unitsInOne) ≤ 2 * (m.units * den) + m.gap * den := by
    rw [high, div_le_div_iff₀ hden' hunit, ← @Nat.cast_le ℚ]
    push_cast
    constructor <;> intro h <;> linarith
  have hhigh_lt : num / den < m.high ↔
      2 * (num * unitsInOne) < 2 * (m.units * den) + m.gap * den := by
    rw [high, div_lt_div_iff₀ hden' hunit, ← @Nat.cast_lt ℚ]
    push_cast
    constructor <;> intro h <;> linarith
  rw [interval]
  split_ifs with heven
  · rw [Set.mem_Icc, hlow_le, hhigh_le]
    exact ⟨fun h => ⟨h.1, h.2, by omega⟩, fun h => ⟨h.lower, h.upper⟩⟩
  · rw [Set.mem_Ioo, hlow_lt, hhigh_lt]
    exact ⟨fun h => ⟨h.1.le, h.2.le, fun _ => h⟩, fun h => h.strict (by omega)⟩

/-- Rounding finds a magnitude exactly for the quotients in its interval. -/
lemma nearest?_eq_some_iff_mem (hden : 0 < den) :
    nearest? num den = some m ↔ (num / den : ℚ) ∈ m.interval := by
  rw [nearest?_eq_some_iff hden, mem_interval_iff_covers hden]

/-- Every number that rounds to a magnitude lies below the bound of all magnitudes. -/
lemma lt_bound_of_mem_interval (hx : x ∈ m.interval) : x < bound := by
  have hunits : m.units + m.gap ≤ bound * unitsInOne := by
    have hbits : 53 + m.shift ≤ 1024 + unitBits := by
      have hshift : m.shift ≤ 2045 := m.canonical.2.1
      have hunit : unitBits = 1074 := rfl
      omega
    calc m.units + m.gap = (m.mantissa + 1) * m.gap := by rw [units_eq, Nat.succ_mul]
      _ ≤ 2 ^ 53 * m.gap := Nat.mul_le_mul_right _ m.mantissa_lt
      _ = 2 ^ (53 + m.shift) := by rw [gap, pow_add]
      _ ≤ 2 ^ (1024 + unitBits) := pow_le_pow_right₀ one_le_two hbits
      _ = bound * unitsInOne := by rw [pow_add, bound, unitsInOne]
  have hgap : (0 : ℚ) < m.gap := by exact_mod_cast m.gap_pos
  have hunits' : (m.units + m.gap : ℚ) ≤ bound * unitsInOne := by exact_mod_cast hunits
  have hhigh : m.high < bound := by
    rw [high, div_lt_iff₀ unitsInOne_pos]
    linarith
  rw [interval] at hx
  split_ifs at hx
  · exact hx.2.trans_lt hhigh
  · exact hx.2.trans hhigh

/-- What rounds to a magnitude other than zero is positive. -/
lemma pos_of_mem_interval (hm : m.mantissa ≠ 0) (hx : x ∈ m.interval) : 0 < x := by
  have hbelow : (m.gapBelow : ℚ) ≤ m.units := by
    have hle : m.gap ≤ m.units := by
      rw [units_eq]
      exact Nat.le_mul_of_pos_left m.gap (Nat.pos_of_ne_zero hm)
    exact_mod_cast m.gapBelow_le_gap.trans hle
  have hpos : (0 : ℚ) < m.gapBelow := by exact_mod_cast m.gapBelow_pos
  have hlow : 0 < m.low := div_pos (by linarith) unitsInOne_pos
  rw [interval] at hx
  split_ifs at hx
  · exact hlow.trans_le hx.1
  · exact hlow.trans hx.1

/-- A multiple that rounds to a magnitude other than zero is not the multiple by zero. -/
lemma pos_of_mul_mem_interval (hm : m.mantissa ≠ 0) {k : ℕ} (hx : (k * x : ℚ) ∈ m.interval) :
    0 < k := by
  rw [Nat.pos_iff_ne_zero]
  rintro rfl
  have hzero := pos_of_mem_interval hm hx
  simp at hzero

/-! ## The points of the grids -/

/-- The step of a grid. -/
def step (j : ℕ) : ℚ := 10 ^ ((j : ℤ) - gridOffset)

lemma step_pos (j : ℕ) : 0 < step j := zpow_pos (by norm_num) _

lemma step_le_step {i j : ℕ} (h : i ≤ j) : step i ≤ step j :=
  zpow_le_zpow_right₀ (by norm_num) (by omega)

/-- The steps of two grids differ by a power of ten. -/
lemma step_add (i j : ℕ) : step (i + j) = 10 ^ i * step j := by
  rw [step, step, ← zpow_natCast, ← zpow_add₀ (by norm_num)]
  congr 1
  push_cast
  ring

/-- The number of fine units in one. -/
def fineUnit : ℕ := 4 * unitsInOne * fineScale

lemma fineUnit_pos : (0 : ℚ) < fineUnit := by
  have hunits : 0 < 4 * unitsInOne := Nat.mul_pos (by omega) (Nat.two_pow_pos unitBits)
  exact_mod_cast Nat.mul_pos hunits fineScale_pos

lemma cast_gridStep (j : ℕ) : (gridStep j : ℚ) = step j * fineUnit := by
  have hscale : (fineScale : ℚ) = 10 ^ (gridOffset : ℤ) := by
    rw [fineScale, zpow_natCast, Nat.cast_pow, Nat.cast_ofNat]
  have hstep : step j * fineScale = 10 ^ j := by
    rw [hscale, step, ← zpow_add₀ (by norm_num), sub_add_cancel, zpow_natCast]
  have hbits : 2 ^ (unitBits + 2) = 4 * unitsInOne := by
    rw [unitsInOne, Nat.pow_add, Nat.mul_comm]
  rw [gridStep, Nat.pow_eq, Nat.pow_eq, fineUnit, hbits]
  push_cast
  rw [← hstep]
  ring

lemma cast_fine (m : Magnitude) : (m.fine : ℚ) = m.toRat * fineUnit := by
  have hunit := unitsInOne_pos.ne'
  rw [fine_eq, toRat, fineUnit]
  push_cast
  field_simp

/-- Magnitudes have less than ten thousand bits in fine units. -/
lemma exists_fine_lt (m : Magnitude) : ∃ bits < 10000, m.fine < 2 ^ bits := by
  have hunits : m.units < 2 ^ (53 + m.shift) := by
    rw [units_eq, gap, pow_add]
    exact Nat.mul_lt_mul_of_pos_right m.mantissa_lt (Nat.two_pow_pos m.shift)
  have hscale : fineScale ≤ 2 ^ (4 * gridOffset) := by
    rw [fineScale, pow_mul]
    exact Nat.pow_le_pow_left (by norm_num) gridOffset
  refine ⟨2 + (53 + m.shift) + 4 * gridOffset, ?_, ?_⟩
  · have hshift : m.shift ≤ 2045 := m.canonical.2.1
    have hoffset : gridOffset = 400 := rfl
    omega
  · calc m.fine = 4 * m.units * fineScale := m.fine_eq
      _ ≤ 4 * m.units * 2 ^ (4 * gridOffset) := Nat.mul_le_mul_left _ hscale
      _ < 2 ^ 2 * 2 ^ (53 + m.shift) * 2 ^ (4 * gridOffset) :=
          Nat.mul_lt_mul_of_pos_right (Nat.mul_lt_mul_of_pos_left hunits (by norm_num))
            (Nat.two_pow_pos _)
      _ = 2 ^ (2 + (53 + m.shift) + 4 * gridOffset) := by
          rw [pow_add 2 _ (4 * gridOffset), pow_add 2 2]

/-- The ends of the interval in fine units. -/
lemma low_mul_fineUnit (m : Magnitude) : m.low * fineUnit = m.fine - m.below := by
  have hunit := unitsInOne_pos.ne'
  rw [fine_eq, below_eq, low, fineUnit]
  push_cast
  field_simp
  ring

lemma high_mul_fineUnit (m : Magnitude) : m.high * fineUnit = m.fine + m.above := by
  have hunit := unitsInOne_pos.ne'
  rw [fine_eq, above_eq, high, fineUnit]
  push_cast
  field_simp
  ring

/-- A point of a grid rounds to a magnitude exactly if it lies in its interval. -/
lemma roundsFrom_mul_gridStep (m : Magnitude) (n j : ℕ) :
    m.roundsFrom (n * gridStep j) ↔ (n * step j : ℚ) ∈ m.interval := by
  have hlow := m.low_mul_fineUnit
  have hhigh := m.high_mul_fineUnit
  have hpoint : ((n * gridStep j : ℕ) : ℚ) = n * step j * fineUnit := by
    rw [Nat.cast_mul, cast_gridStep, mul_assoc]
  generalize n * gridStep j = x at *
  have hpos := fineUnit_pos
  have hle : m.low ≤ n * step j ↔ m.fine ≤ x + m.below := by
    rw [← mul_le_mul_iff_left₀ hpos, ← hpoint, hlow, sub_le_iff_le_add]
    exact_mod_cast Iff.rfl
  have hlt : m.low < n * step j ↔ m.fine < x + m.below := by
    rw [← mul_lt_mul_iff_left₀ hpos, ← hpoint, hlow, sub_lt_iff_lt_add]
    exact_mod_cast Iff.rfl
  have hge : n * step j ≤ m.high ↔ x ≤ m.fine + m.above := by
    rw [← mul_le_mul_iff_left₀ hpos, ← hpoint, hhigh]
    exact_mod_cast Iff.rfl
  have hgt : n * step j < m.high ↔ x < m.fine + m.above := by
    rw [← mul_lt_mul_iff_left₀ hpos, ← hpoint, hhigh]
    exact_mod_cast Iff.rfl
  rw [roundsFrom, interval]
  split_ifs
  · rw [Set.mem_Icc, hle, hge, Bool.and_eq_true, decide_eq_true_eq, decide_eq_true_eq]
  · rw [Set.mem_Ioo, hlt, hgt, Bool.and_eq_true, decide_eq_true_eq, decide_eq_true_eq]

/-- A magnitude lies between two neighbouring points of each grid. -/
lemma div_gridStep_mul_step_le (m : Magnitude) (j : ℕ) :
    ((m.fine / gridStep j : ℕ) * step j : ℚ) ≤ m.toRat ∧
      m.toRat < ((m.fine / gridStep j : ℕ) + 1) * step j := by
  have hpos := fineUnit_pos
  have hle : m.fine / gridStep j * gridStep j ≤ m.fine := Nat.div_mul_le_self _ _
  have hlt : m.fine < (m.fine / gridStep j + 1) * gridStep j :=
    Nat.lt_mul_of_div_lt (Nat.lt_succ_self _) (gridStep_pos j)
  generalize m.fine / gridStep j = d at *
  rw [← @Nat.cast_le ℚ, Nat.cast_mul, cast_gridStep, cast_fine, ← mul_assoc,
    mul_le_mul_iff_left₀ hpos] at hle
  rw [← @Nat.cast_lt ℚ, Nat.cast_mul, cast_gridStep, cast_fine, ← mul_assoc,
    mul_lt_mul_iff_left₀ hpos, Nat.cast_succ] at hlt
  exact ⟨hle, hlt⟩

/-! ## The search on the grids -/

/-- A point of the grid rounds to the magnitude. -/
def IsHit (m : Magnitude) (j : ℕ) : Prop := ∃ n : ℕ, (n * step j : ℚ) ∈ m.interval

/-- A grid that is hit is hit next to the magnitude. -/
lemma IsHit.onGrid?_ne_none (h : m.IsHit j) : m.onGrid? j ≠ none := by
  obtain ⟨n, hn⟩ := h
  obtain ⟨hbelow, habove⟩ := m.div_gridStep_mul_step_le j
  simp only [onGrid?]
  generalize m.fine / gridStep j = d at *
  have hstep := (step_pos j).le
  have hneighbour : m.roundsFrom (d * gridStep j) ∨ m.roundsFrom ((d + 1) * gridStep j) := by
    simp only [roundsFrom_mul_gridStep]
    rcases Nat.lt_or_ge d n with hlt | hge
    · have hle : ((d + 1 : ℕ) : ℚ) ≤ n := by exact_mod_cast hlt
      refine .inr (mem_interval_of_le_of_le m.toRat_mem_interval hn ?_ ?_)
      · exact_mod_cast habove.le
      · exact mul_le_mul_of_nonneg_right hle hstep
    · have hle : (n : ℚ) ≤ d := by exact_mod_cast hge
      exact .inl (mem_interval_of_le_of_le hn m.toRat_mem_interval
        (mul_le_mul_of_nonneg_right hle hstep) hbelow)
  rcases hneighbour with hdown | hup
  · rw [hdown]
    split <;> simp_all
  · rw [hup]
    split <;> simp_all

/-- The nearest whole number is one of the two neighbours of a quotient. -/
lemma roundDiv_le (num den : ℕ) : roundDiv num den ≤ num / den + 1 := by
  simp only [roundDiv]
  split_ifs <;> omega

/-- A multiple that is found on a grid is one of the two neighbours of the magnitude. -/
lemma le_of_onGrid? (h : m.onGrid? j = some n) : n ≤ m.fine / gridStep j + 1 := by
  simp only [onGrid?] at h
  split at h
  · obtain rfl := Option.some.inj h
    exact roundDiv_le _ _
  · obtain rfl := Option.some.inj h
    exact Nat.le_succ _
  · obtain rfl := Option.some.inj h
    exact le_rfl
  · cases h

/-- What the search finds from a grid down. -/
structure Hit (m : Magnitude) (top n j : ℕ) : Prop where
  le : j ≤ top
  mem : (n * step j : ℚ) ∈ m.interval
  near : n ≤ m.fine / gridStep j + 1
  coarsest : ∀ i, j < i → i ≤ top → ¬ m.IsHit i

/-- The finest grid is finer than half the distance between any two magnitudes. -/
lemma gridStep_zero_lt : gridStep 0 < fineScale := by
  have hbits : gridStep 0 = 2 ^ (unitBits + 2) := by
    rw [gridStep, Nat.pow_eq, Nat.pow_eq, Nat.pow_zero, Nat.one_mul]
  have hoffset : unitBits + 2 < 3 * gridOffset := by decide
  calc gridStep 0 = 2 ^ (unitBits + 2) := hbits
    _ < 2 ^ (3 * gridOffset) := pow_lt_pow_right₀ one_lt_two hoffset
    _ = (2 ^ 3) ^ gridOffset := pow_mul 2 3 gridOffset
    _ ≤ fineScale := Nat.pow_le_pow_left (by norm_num) gridOffset

/-- The finest grid is hit at the point nearest to the magnitude. -/
lemma roundsFrom_roundDiv (m : Magnitude) :
    m.roundsFrom (roundDiv m.fine (gridStep 0) * gridStep 0) := by
  obtain ⟨hle, hge, -⟩ := isNearest_roundDiv m.fine (gridStep_pos 0)
  have hstep := gridStep_zero_lt
  have habove : 1 * (2 * fineScale) ≤ m.gap * (2 * fineScale) := Nat.mul_le_mul_right _ m.gap_pos
  have hbelow : 1 * (2 * fineScale) ≤ m.gapBelow * (2 * fineScale) :=
    Nat.mul_le_mul_right _ m.gapBelow_pos
  have habove' : m.above = m.gap * (2 * fineScale) := by rw [above_eq]; ring
  have hbelow' : m.below = m.gapBelow * (2 * fineScale) := by rw [below_eq]; ring
  rw [roundsFrom]
  split_ifs <;> rw [Bool.and_eq_true, decide_eq_true_eq, decide_eq_true_eq] <;> omega

/-- The search finds a point of the coarsest grid that is hit. -/
lemma hit_searchGrids (m : Magnitude) (top : ℕ) :
    m.Hit top (m.searchGrids top).1 (m.searchGrids top).2 := by
  induction top with
  | zero =>
    have hmem := (roundsFrom_mul_gridStep m _ 0).1 m.roundsFrom_roundDiv
    simp only [searchGrids]
    exact ⟨le_rfl, hmem, roundDiv_le _ _, fun i hi hi' => absurd hi (by omega)⟩
  | succ j ih =>
    cases hgrid : m.onGrid? (j + 1) with
    | some n =>
      rw [searchGrids_of_some hgrid]
      exact ⟨le_rfl, (roundsFrom_mul_gridStep _ _ _).1 (roundsFrom_of_onGrid? hgrid),
        le_of_onGrid? hgrid, fun i hi hi' => absurd hi (by omega)⟩
    | none =>
      rw [searchGrids_of_none hgrid]
      refine ⟨ih.le.trans (Nat.le_succ j), ih.mem, ih.near, fun i hi hi' hhit => ?_⟩
      rcases Nat.lt_or_ge j i with hlt | hge
      · obtain rfl : i = j + 1 := by omega
        exact hhit.onGrid?_ne_none hgrid
      · exact ih.coarsest i hi hge hhit

/-- If the search begins above a magnitude and a number of that size rounds to the magnitude, then the
search ends at once. -/
lemma Hit.le_ten {top : ℕ} (h : m.Hit top n j) (htop : m.toRat < step (top + 1))
    (hx : x ∈ m.interval) (hle : step (top + 1) ≤ x) : n ≤ 10 := by
  have hten : step (top + 1) = (10 : ℕ) * step top := by
    rw [Nat.add_comm, step_add, pow_one, Nat.cast_ofNat]
  have hhit : m.IsHit top :=
    ⟨10, hten ▸ mem_interval_of_le_of_le m.toRat_mem_interval hx htop.le hle⟩
  have hj : j = top := by
    by_contra hne
    exact h.coarsest top (lt_of_le_of_ne h.le hne) le_rfl hhit
  have hbelow := (m.div_gridStep_mul_step_le top).1.trans_lt htop
  rw [hten, mul_lt_mul_iff_left₀ (step_pos top), Nat.cast_lt] at hbelow
  have hnear := h.near
  rw [hj] at hnear
  omega

/-- No number in the interval has fewer digits than the point that the search finds, zeros at its end
apart. -/
lemma Hit.lt_pow {top k L : ℕ} {e : ℤ} (h : m.Hit top n j) (hm : m.mantissa ≠ 0)
    (htop : m.toRat < step (top + 1)) (hL : 0 < L) (hk : k < 10 ^ L)
    (hx : (k * 10 ^ e : ℚ) ∈ m.interval) : n < 10 ^ L ∨ n = 10 := by
  by_contra hcon
  obtain ⟨hge, hne⟩ : 10 ^ L ≤ n ∧ n ≠ 10 := by omega
  have hlarge : 10 ≤ n := (Nat.le_self_pow hL.ne' 10).trans hge
  have hsmall : ¬ n ≤ 10 := by omega
  -- no number at or above the start of the search rounds to the magnitude
  have hstart {i : ℕ} {y : ℚ} (hy : y ∈ m.interval) (hi : step i ≤ y) : i ≤ top := by
    by_contra hlt
    exact hsmall (h.le_ten htop hy ((step_le_step (by omega)).trans hi))
  have hpower : step (L + j) ≤ n * step j := by
    rw [step_add]
    refine mul_le_mul_of_nonneg_right ?_ (step_pos j).le
    exact_mod_cast hge
  rcases le_or_gt (k * 10 ^ e : ℚ) (step (L + j)) with hle | hgt
  · -- the power of ten between the two numbers is a point of a coarser grid
    have hmem := mem_interval_of_le_of_le hx h.mem hle hpower
    exact h.coarsest (L + j) (by omega) (hstart h.mem hpower) ⟨1, by simpa using hmem⟩
  · -- the number itself is a point of a coarser grid
    have hten : (0 : ℚ) < 10 ^ e := zpow_pos (by norm_num) e
    have hk' : (k : ℚ) < 10 ^ L := by exact_mod_cast hk
    have hlt : step (L + j) < 10 ^ (L + e) := by
      calc step (L + j) < k * 10 ^ e := hgt
        _ < 10 ^ L * 10 ^ e := mul_lt_mul_of_pos_right hk' hten
        _ = 10 ^ (L + e) := by rw [zpow_add₀ (by norm_num), zpow_natCast]
    rw [step, zpow_lt_zpow_iff_right₀ (by norm_num)] at hlt
    obtain ⟨i, hi⟩ : ∃ i : ℕ, e = (i : ℤ) - gridOffset := ⟨(e + gridOffset).toNat, by omega⟩
    have hpoint : (k * 10 ^ e : ℚ) = k * step i := by rw [hi, step]
    rw [hpoint] at hx
    have hpos : 0 < k := pos_of_mul_mem_interval hm hx
    have hle : step i ≤ k * step i := by
      refine le_mul_of_one_le_left (step_pos i).le ?_
      exact_mod_cast hpos
    exact h.coarsest i (by omega) (hstart hx hle) ⟨k, hx⟩

end Magnitude

/-- A decimal is read as a magnitude exactly if it lies in its interval. -/
lemma Numeral.scale_eq_finite_iff {negative : Bool} {n : ℕ} {e : ℤ} {m : Magnitude} :
    Numeral.scale negative n 10 e = .finite negative m ↔ (n * 10 ^ e : ℚ) ∈ m.interval := by
  have hnearest {num den : ℕ} (hden : 0 < den) :
      Binary64.nearest negative num den = .finite negative m ↔ (num / den : ℚ) ∈ m.interval := by
    rw [← Magnitude.nearest?_eq_some_iff_mem hden, Binary64.nearest]
    cases Magnitude.nearest? num den <;> simp
  cases e with
  | ofNat k =>
    rw [scale, hnearest Nat.one_pos, Nat.pow_eq, Int.ofNat_eq_natCast, zpow_natCast]
    push_cast
    rw [div_one]
  | negSucc k =>
    rw [scale, Nat.pow_eq, hnearest (Nat.pow_pos (by omega)), zpow_negSucc, div_eq_mul_inv]
    push_cast
    rfl

namespace Decimal

open Magnitude

variable {m : Magnitude}

/-! ## The shortest decimal -/

/-- A decimal as a rational number. -/
def toRat (d : Decimal) : ℚ :=
  Nat.ofDigitChars 10 d.digits 0 * 10 ^ (d.point - d.digits.length)

/-- The digits of a scaled number, with the zeros that were cut off at their end. -/
lemma digits_scaled_append (n : ℕ) (e : ℤ) :
    (scaled n e).digits ++
        List.replicate ((Nat.toDigits 10 n).length - (scaled n e).digits.length) '0' =
      Nat.toDigits 10 n := by
  have htrimmed := trimmed_append (Nat.toDigits 10 n)
  simp only [scaled, List.length_reverse]
  exact htrimmed

lemma toRat_scaled (n : ℕ) (e : ℤ) : (scaled n e).toRat = n * 10 ^ e := by
  have hdigits := digits_scaled_append n e
  have hpoint : (scaled n e).point = (Nat.toDigits 10 n).length + e := rfl
  rw [toRat, hpoint]
  generalize (scaled n e).digits = digits at *
  have hlength := congrArg List.length hdigits
  rw [List.length_append, List.length_replicate] at hlength
  have hvalue := Nat.ofDigitChars_toDigits (b := 10) (n := n) (by omega) le_rfl
  generalize Nat.toDigits 10 n = all at *
  obtain ⟨z, hz⟩ : ∃ z, all.length = digits.length + z := ⟨all.length - digits.length, by omega⟩
  rw [hz, Nat.add_sub_cancel_left] at hdigits
  rw [← hdigits, Nat.ofDigitChars_append, ofDigitChars_replicate_zero] at hvalue
  have hexponent : ((all.length : ℤ) + e - digits.length) = z + e := by omega
  rw [← hvalue, hexponent, zpow_add₀ (by norm_num), zpow_natCast]
  push_cast
  ring

/-- The power of ten of the first digit is not guessed too small. -/
lemma lt_pow_topPower {n bits : ℕ} (hbits : bits < 10000) (h : n < 2 ^ bits) :
    n < 10 ^ (topPower n + 1) := by
  have hlog : n.log2 < 10000 := by
    rcases Nat.eq_zero_or_pos n with rfl | hpos
    · decide
    · exact ((Nat.log2_lt hpos.ne').2 h).trans hbits
  rw [topPower]
  split_ifs with hguess
  · exact hguess
  · have hself : n < 2 ^ (n.log2 + 1) := Nat.lt_log2_self
    refine hself.trans_le ((Nat.pow_le_pow_iff_left (n := 93) (by omega)).1 ?_)
    -- `2 ^ 93` is just below `10 ^ 28`
    calc (2 ^ (n.log2 + 1)) ^ 93 = (2 ^ 93) ^ (n.log2 + 1) := by
          rw [← Nat.pow_mul, ← Nat.pow_mul, Nat.mul_comm]
      _ ≤ (10 ^ 28) ^ (n.log2 + 1) := Nat.pow_le_pow_left (by norm_num) _
      _ = 10 ^ (28 * (n.log2 + 1)) := (Nat.pow_mul 10 28 _).symm
      _ ≤ 10 ^ ((n.log2 * 30102 / 100000 + 1 + 1) * 93) :=
          Nat.pow_le_pow_right (by omega) (by omega)
      _ = _ := Nat.pow_mul 10 _ 93

/-- The search begins above the magnitude. -/
lemma toRat_lt_step_topPower (m : Magnitude) :
    m.toRat < step (topPower (m.fine / gridStep 0) + 1) := by
  have habove := (m.div_gridStep_mul_step_le 0).2
  obtain ⟨bits, hbits, hfine⟩ := m.exists_fine_lt
  have hlt := lt_pow_topPower hbits ((Nat.div_le_self m.fine (gridStep 0)).trans_lt hfine)
  generalize m.fine / gridStep 0 = d at *
  have hle : (d + 1 : ℚ) ≤ 10 ^ (topPower d + 1) := by
    exact_mod_cast Nat.succ_le_of_lt hlt
  calc m.toRat < (d + 1) * step 0 := habove
    _ ≤ 10 ^ (topPower d + 1) * step 0 := mul_le_mul_of_nonneg_right hle (step_pos 0).le
    _ = step (topPower d + 1) := (step_add (topPower d + 1) 0).symm

/-- The shortest decimal of a magnitude is a point that the search finds. -/
lemma exists_shortest_eq (m : Magnitude) :
    ∃ top n j : ℕ, shortest m = scaled n (j - gridOffset) ∧ m.Hit top n j ∧
      m.toRat < step (top + 1) :=
  ⟨_, _, _, rfl, m.hit_searchGrids _, toRat_lt_step_topPower m⟩

/-- The shortest decimal of a magnitude rounds to it. -/
lemma toRat_shortest_mem (m : Magnitude) : (shortest m).toRat ∈ m.interval := by
  obtain ⟨top, n, j, hshortest, hhit, -⟩ := exists_shortest_eq m
  rw [hshortest, toRat_scaled]
  exact hhit.mem

/-- No decimal that rounds to a magnitude has fewer digits than the shortest one. -/
lemma length_digits_shortest_le (hm : m.mantissa ≠ 0) {k : ℕ} {e : ℤ}
    (hx : (k * 10 ^ e : ℚ) ∈ m.interval) :
    (shortest m).digits.length ≤ (Nat.toDigits 10 k).length := by
  obtain ⟨top, n, j, hshortest, hhit, htop⟩ := exists_shortest_eq m
  have hL : 0 < (Nat.toDigits 10 k).length := Nat.length_toDigits_pos
  have hk := (Nat.length_toDigits_le_iff (b := 10) (n := k) (by omega) hL).1 le_rfl
  rw [hshortest]
  rcases hhit.lt_pow hm htop hL hk hx with hlt | rfl
  · have hle := congrArg List.length (digits_scaled_append n ((j : ℤ) - gridOffset))
    rw [List.length_append] at hle
    have hdigits := (Nat.length_toDigits_le_iff (b := 10) (by omega) hL).2 hlt
    omega
  · exact hL

end Decimal

end ExprLang
