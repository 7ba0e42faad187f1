import ExprLang.Number.Binary64
import Mathlib.Algebra.Order.Ring.Nat
import Mathlib.Tactic.Positivity
import Mathlib.Tactic.Ring

/-!
# Rounding to the nearest magnitude

The quotients that round to a magnitude form an interval around it.  It reaches halfway to the
magnitudes on either side, and its ends belong to it exactly if the mantissa is even.  The distance
to the magnitude above is `Magnitude.gap`; the distance to the one below is the same, except below
the least mantissa of a shift, where it is half of that (`Magnitude.gapBelow`).

`Magnitude.Covers` says that a quotient lies in the interval of a magnitude, and
`Magnitude.nearestUnits?_eq_some_iff` that rounding finds a magnitude exactly for the quotients that
it covers.  The mantissa is found by `roundDiv`, whose result is a nearest whole number
(`isNearest_roundDiv`) and the only one (`IsNearest.unique`).
-/

namespace ExprLang

/-! ## Rounding to a whole number -/

/-- A whole number is at most half away from a quotient, and less than that if it is odd. -/
structure IsNearest (num den k : ℕ) : Prop where
  le : 2 * (k * den) ≤ 2 * num + den
  ge : 2 * num ≤ 2 * (k * den) + den
  strict : k % 2 = 1 → 2 * (k * den) < 2 * num + den ∧ 2 * num < 2 * (k * den) + den

/-- Rounding finds a nearest whole number. -/
lemma isNearest_roundDiv (num : ℕ) {den : ℕ} (hden : 0 < den) :
    IsNearest num den (roundDiv num den) := by
  have hr : num % den < den := Nat.mod_lt num hden
  have hnum : num = num / den * den + num % den := (Nat.div_add_mod' num den).symm
  simp only [roundDiv, Bool.or_eq_true, Bool.and_eq_true, decide_eq_true_eq, beq_iff_eq]
  generalize num / den = q at *
  generalize num % den = r at *
  split_ifs with hdown
  · constructor <;> omega
  · have hsucc : (q + 1) * den = q * den + den := Nat.succ_mul q den
    constructor <;> rw [hsucc] <;> omega

/-- Two whole numbers that are nearest to one quotient are equal: of two neighbours with the
quotient halfway between them, one is odd. -/
lemma IsNearest.unique {num den k k' : ℕ} (hden : 0 < den) (h : IsNearest num den k)
    (h' : IsNearest num den k') : k = k' := by
  wlog hlt : k < k' generalizing k k' with hwlog
  · rcases Nat.lt_or_ge k' k with hgt | hge
    · exact (hwlog h' h hgt).symm
    · omega
  exfalso
  have hnext : (k + 1) * den ≤ k' * den := Nat.mul_le_mul_right den hlt
  have hsucc : (k + 1) * den = k * den + den := Nat.succ_mul k den
  have hle := h'.le
  have hge := h.ge
  have hk' : k' = k + 1 := by
    refine Nat.eq_of_mul_eq_mul_right hden ?_
    omega
  subst hk'
  rcases Nat.mod_two_eq_zero_or_one k with heven | hodd
  · have hstrict := (h'.strict (by omega)).1
    omega
  · have hstrict := (h.strict hodd).2
    omega

/-- Rounding finds exactly the nearest whole number. -/
lemma roundDiv_eq_iff {num den k : ℕ} (hden : 0 < den) :
    roundDiv num den = k ↔ IsNearest num den k := by
  constructor
  · rintro rfl
    exact isNearest_roundDiv num hden
  · intro h
    exact (isNearest_roundDiv num hden).unique hden h

/-! ## The interval of a magnitude -/

namespace Magnitude

variable {m : Magnitude} {num den : ℕ}

/-- The distance to the next magnitude above, in units. -/
def gap (m : Magnitude) : ℕ := 2 ^ m.shift

/-- The distance to the next magnitude below, in units. -/
def gapBelow (m : Magnitude) : ℕ :=
  if m.mantissa = 2 ^ 52 ∧ 0 < m.shift then 2 ^ (m.shift - 1) else 2 ^ m.shift

/-- A number of units lies in the interval that rounds to a magnitude. -/
structure Covers (m : Magnitude) (num den : ℕ) : Prop where
  lower : 2 * (m.units * den) ≤ 2 * num + m.gapBelow * den
  upper : 2 * num ≤ 2 * (m.units * den) + m.gap * den
  strict : m.mantissa % 2 = 1 →
    2 * (m.units * den) < 2 * num + m.gapBelow * den ∧ 2 * num < 2 * (m.units * den) + m.gap * den

lemma units_eq (m : Magnitude) : m.units = m.mantissa * m.gap := rfl

/-- The magnitude above is at least as far away as the one below. -/
lemma gapBelow_le_gap (m : Magnitude) : m.gapBelow ≤ m.gap := by
  rw [gapBelow, gap]
  split_ifs with h
  · exact Nat.pow_le_pow_right (by norm_num) (Nat.sub_le _ _)
  · exact le_rfl

/-- Unless the mantissa is the least one of its shift, the magnitudes on both sides are equally far
away. -/
lemma gapBelow_of_ne (h : m.mantissa ≠ 2 ^ 52 ∨ m.shift = 0) : m.gapBelow = m.gap := by
  rw [gapBelow, if_neg (by omega), gap]

/-- The units and the gap of a magnitude, in multiples of a denominator. -/
lemma units_mul_den (m : Magnitude) (den : ℕ) :
    m.units * den = m.mantissa * (den * 2 ^ m.shift) ∧ m.gap * den = den * 2 ^ m.shift := by
  refine ⟨?_, Nat.mul_comm _ _⟩
  rw [units_eq, gap]
  ring

/-- The least magnitude of a shift has one bit more on the scale of the shift below. -/
lemma units_mul_den_of_least {s : ℕ} (hmantissa : m.mantissa = 2 ^ 52) (hs : m.shift = s + 1)
    (den : ℕ) : m.units * den = 2 ^ 53 * (den * 2 ^ s) ∧ m.gap * den = 2 * (den * 2 ^ s) ∧
      m.gapBelow * den = den * 2 ^ s := by
  refine ⟨?_, ?_, ?_⟩
  · rw [units_eq, hmantissa, gap, hs]
    ring
  · rw [gap, hs]
    ring
  · rw [gapBelow, if_pos ⟨hmantissa, by omega⟩, hs, Nat.add_sub_cancel, Nat.mul_comm]

/-- Parts in canonical form make a magnitude with these parts. -/
lemma ofParts?_eq_some_iff {mantissa shift : ℕ} :
    ofParts? mantissa shift = some m ↔ m.mantissa = mantissa ∧ m.shift = shift := by
  rw [ofParts?]
  constructor
  · intro h
    split_ifs at h with hparts
    obtain rfl := Option.some.inj h
    exact ⟨rfl, rfl⟩
  · rintro ⟨rfl, rfl⟩
    rw [dif_pos m.canonical]

/-- A mantissa has at most 53 bits. -/
lemma mantissa_lt (m : Magnitude) : m.mantissa < 2 ^ 53 := m.canonical.1

/-- A mantissa that is shifted has exactly 53 bits. -/
lemma le_mantissa (h : 0 < m.shift) : 2 ^ 52 ≤ m.mantissa :=
  m.canonical.2.2.resolve_left (by omega)

/-! ## The shift of a quotient -/

/-- The shift that leaves 53 bits of a quotient, or zero if it has no more. -/
lemma shift_eq (hden : 0 < den) {s : ℕ} (hlower : s = 0 ∨ 2 ^ 52 * (den * 2 ^ s) ≤ num)
    (hupper : num < 2 ^ 53 * (den * 2 ^ s)) : Nat.log2 (num / den) - 52 = s := by
  have hlt : num / den < 2 ^ (s + 53) := by
    rw [Nat.div_lt_iff_lt_mul hden]
    calc num < 2 ^ 53 * (den * 2 ^ s) := hupper
      _ = 2 ^ (s + 53) * den := by ring
  rcases hlower with rfl | hlower
  · rcases Nat.eq_zero_or_pos (num / den) with hzero | hpos
    · rw [hzero]
      decide
    · have hlog : Nat.log2 (num / den) < 0 + 53 := (Nat.log2_lt hpos.ne').2 hlt
      omega
  · have hle : 2 ^ (s + 52) ≤ num / den := by
      rw [Nat.le_div_iff_mul_le hden]
      calc 2 ^ (s + 52) * den = 2 ^ 52 * (den * 2 ^ s) := by ring
        _ ≤ num := hlower
    have hpos : num / den ≠ 0 := by
      have := Nat.two_pow_pos (s + 52)
      omega
    have hlog : Nat.log2 (num / den) = s + 52 := (Nat.log2_eq_iff hpos).2 ⟨hle, hlt⟩
    omega

/-- A quotient whose shift is not zero has at least 53 bits. -/
lemma le_of_shift_pos (hden : 0 < den) (h : 0 < Nat.log2 (num / den) - 52) :
    2 ^ 52 * (den * 2 ^ (Nat.log2 (num / den) - 52)) ≤ num := by
  have hpos : num / den ≠ 0 := by
    intro hzero
    rw [hzero] at h
    exact absurd h (by decide)
  have hle : 2 ^ (Nat.log2 (num / den) - 52 + 52) ≤ num / den := by
    rw [Nat.sub_add_cancel (by omega)]
    exact Nat.log2_self_le hpos
  calc 2 ^ 52 * (den * 2 ^ (Nat.log2 (num / den) - 52))
      = 2 ^ (Nat.log2 (num / den) - 52 + 52) * den := by ring
    _ ≤ num := (Nat.le_div_iff_mul_le hden).1 hle

/-- Rounding as a search for the nearest mantissa.  The mantissa with one bit too many is carried
over to the next shift. -/
lemma nearestUnits?_of_isNearest {k s : ℕ} (hden : 0 < den)
    (hs : Nat.log2 (num / den) - 52 = s) (hk : IsNearest num (den * 2 ^ s) k) :
    nearestUnits? num den = if k = 2 ^ 53 then ofParts? (2 ^ 52) (s + 1) else ofParts? k s := by
  have hround : roundDiv num (den * 2 ^ s) = k := (roundDiv_eq_iff (by positivity)).2 hk
  have hbits : mantissaBits - 1 = 52 := rfl
  rw [nearestUnits?]
  simp only [hbits, hs, Nat.pow_eq, hround]

/-! ## Rounding finds what covers -/

/-- A magnitude that covers a quotient of its own shift has the nearest mantissa. -/
lemma Covers.isNearest (h : m.Covers num den) : IsNearest num (den * 2 ^ m.shift) m.mantissa := by
  obtain ⟨hunits, hgap⟩ := m.units_mul_den den
  have hbelow : m.gapBelow * den ≤ m.gap * den := Nat.mul_le_mul_right den m.gapBelow_le_gap
  obtain ⟨hlower, hupper, hstrict⟩ := h
  rw [hunits, hgap] at hupper hstrict
  rw [hunits] at hlower
  rw [hgap] at hbelow
  refine ⟨by omega, hupper, fun hodd => ?_⟩
  have := hstrict hodd
  omega

/-- A covered quotient lies below the range of the next shift. -/
lemma Covers.lt (hden : 0 < den) (h : m.Covers num den) : num < 2 ^ 53 * (den * 2 ^ m.shift) := by
  have hscale : 0 < den * 2 ^ m.shift := by positivity
  have hge := h.isNearest.ge
  have hmantissa : (m.mantissa + 1) * (den * 2 ^ m.shift) ≤ 2 ^ 53 * (den * 2 ^ m.shift) :=
    Nat.mul_le_mul_right _ m.mantissa_lt
  rw [Nat.succ_mul] at hmantissa
  omega

/-- A covered quotient below the range of the shift lies just below its least magnitude. -/
lemma Covers.mantissa_eq_of_lt (h : m.Covers num den) (hpos : 0 < m.shift)
    (hlt : num < 2 ^ 52 * (den * 2 ^ m.shift)) : m.mantissa = 2 ^ 52 := by
  have hle := h.isNearest.le
  by_contra hne
  have hmantissa : (2 ^ 52 + 1) * (den * 2 ^ m.shift) ≤ m.mantissa * (den * 2 ^ m.shift) := by
    refine Nat.mul_le_mul_right _ ?_
    have := le_mantissa hpos
    omega
  rw [Nat.succ_mul] at hmantissa
  omega

/-- Rounding finds a magnitude for every quotient that it covers. -/
lemma Covers.nearestUnits?_eq (hden : 0 < den) (h : m.Covers num den) :
    nearestUnits? num den = some m := by
  have hne : m.mantissa ≠ 2 ^ 53 := m.mantissa_lt.ne
  by_cases hlower : m.shift = 0 ∨ 2 ^ 52 * (den * 2 ^ m.shift) ≤ num
  · rw [nearestUnits?_of_isNearest hden (shift_eq hden hlower (h.lt hden)) h.isNearest, if_neg hne]
    exact ofParts?_eq_some_iff.2 ⟨rfl, rfl⟩
  · -- the quotient is rounded in the range below, where its mantissa carries
    have hpos : 0 < m.shift := by omega
    have hlt : num < 2 ^ 52 * (den * 2 ^ m.shift) := by omega
    have hmantissa : m.mantissa = 2 ^ 52 := h.mantissa_eq_of_lt hpos hlt
    obtain ⟨s, hs⟩ : ∃ s, m.shift = s + 1 := ⟨m.shift - 1, by omega⟩
    obtain ⟨hunits, -, hbelow⟩ := units_mul_den_of_least hmantissa hs den
    have hcarry : 2 ^ 52 * (den * 2 ^ m.shift) = 2 ^ 53 * (den * 2 ^ s) := by
      rw [hs]
      ring
    have hle := h.lower
    rw [hunits, hbelow] at hle
    have hnearest : IsNearest num (den * 2 ^ s) (2 ^ 53) := ⟨hle, by omega, by norm_num⟩
    have hshift : Nat.log2 (num / den) - 52 = s := shift_eq hden (.inr (by omega)) (by omega)
    rw [nearestUnits?_of_isNearest hden hshift hnearest, if_pos rfl]
    exact ofParts?_eq_some_iff.2 ⟨hmantissa, hs⟩

/-- A magnitude covers the quotients for which rounding finds it. -/
lemma covers_of_nearestUnits?_eq (hden : 0 < den) (h : nearestUnits? num den = some m) :
    m.Covers num den := by
  generalize hs : Nat.log2 (num / den) - 52 = s
  have hk : IsNearest num (den * 2 ^ s) (roundDiv num (den * 2 ^ s)) :=
    isNearest_roundDiv num (by positivity)
  rw [nearestUnits?_of_isNearest hden hs hk] at h
  generalize roundDiv num (den * 2 ^ s) = k at hk h
  split_ifs at h with hcarry
  · obtain ⟨hmantissa, hshift⟩ := ofParts?_eq_some_iff.1 h
    obtain ⟨hunits, hgap, hbelow⟩ := units_mul_den_of_least hmantissa hshift den
    have hle := hk.le
    have hge := hk.ge
    rw [hcarry] at hle hge
    exact ⟨by omega, by omega, by omega⟩
  · obtain ⟨rfl, rfl⟩ := ofParts?_eq_some_iff.1 h
    obtain ⟨hunits, hgap⟩ := m.units_mul_den den
    have hge := hk.ge
    by_cases hleast : m.mantissa = 2 ^ 52 ∧ 0 < m.shift
    · -- the quotient itself is not below the least magnitude of its shift
      have hle := le_of_shift_pos hden (hs ▸ hleast.2)
      rw [hs] at hle
      rw [hleast.1] at hunits hge
      exact ⟨by omega, by omega, by omega⟩
    · have hbelow : m.gapBelow = m.gap := gapBelow_of_ne (by omega)
      obtain ⟨hle, -, hstrict⟩ := hk
      rw [← hunits, ← hgap] at hle hge hstrict
      exact ⟨hbelow ▸ hle, hge, hbelow ▸ hstrict⟩

/-- Rounding finds a magnitude exactly for the quotients that it covers. -/
lemma nearestUnits?_eq_some_iff (hden : 0 < den) :
    nearestUnits? num den = some m ↔ m.Covers num den :=
  ⟨covers_of_nearestUnits?_eq hden, Covers.nearestUnits?_eq hden⟩

/-- Rounding finds the magnitude nearest to `num / den` among the units. -/
lemma nearest?_eq_some_iff (hden : 0 < den) :
    nearest? num den = some m ↔ m.Covers (num * 2 ^ unitBits) den := by
  rw [nearest?, Nat.pow_eq, nearestUnits?_eq_some_iff hden]

/-- A whole number beyond every magnitude. -/
def bound : ℕ := 2 ^ 1024

/-- Beyond the largest magnitude there is none. -/
lemma nearest?_eq_none (hden : 0 < den) (h : bound * den ≤ num) : nearest? num den = none := by
  by_contra hsome
  obtain ⟨m, hm⟩ := Option.ne_none_iff_exists'.1 hsome
  have hlt := ((nearest?_eq_some_iff hden).1 hm).lt hden
  have hshift : 2 ^ 53 * 2 ^ m.shift ≤ bound * 2 ^ unitBits := by
    rw [bound, ← Nat.pow_add, ← Nat.pow_add]
    have hmax : m.shift ≤ 2045 := m.canonical.2.1
    have hsum : 53 + m.shift ≤ 1024 + unitBits := by simp only [unitBits]; omega
    exact Nat.pow_le_pow_right (by norm_num) hsum
  refine absurd hlt (Nat.not_lt_of_le ?_)
  calc 2 ^ 53 * (den * 2 ^ m.shift) = den * (2 ^ 53 * 2 ^ m.shift) := Nat.mul_left_comm _ _ _
    _ ≤ den * (bound * 2 ^ unitBits) := Nat.mul_le_mul_left den hshift
    _ = bound * den * 2 ^ unitBits := by rw [← Nat.mul_assoc, Nat.mul_comm den]
    _ ≤ num * 2 ^ unitBits := Nat.mul_le_mul_right _ h

/-- A magnitude that covers a multiple of its gap is equal to it. -/
lemma Covers.units_eq_of_dvd {n : ℕ} (h : m.Covers n 1) (hdvd : m.gap ∣ n) : m.units = n := by
  obtain ⟨a, rfl⟩ := hdvd
  have hgap : 0 < m.gap := Nat.two_pow_pos m.shift
  have hnearest := h.isNearest
  rw [Nat.one_mul, ← gap] at hnearest
  have hself : IsNearest (m.gap * a) m.gap a := by
    constructor <;> rw [Nat.mul_comm a] <;> omega
  rw [units_eq, hnearest.unique hgap hself, Nat.mul_comm]

/-- The magnitude nearest to a whole number is a whole number. -/
lemma exists_units_eq_of_nearest? {n : ℕ} (h : nearest? n 1 = some m) :
    ∃ k, m.units = k * 2 ^ unitBits := by
  rcases Nat.le_total m.shift unitBits with hle | hge
  · -- the gap divides the number of units, which is then exact
    have hcovers := (nearest?_eq_some_iff (by norm_num)).1 h
    have hdvd : m.gap ∣ n * 2 ^ unitBits := Dvd.dvd.mul_left (pow_dvd_pow 2 hle) n
    exact ⟨n, hcovers.units_eq_of_dvd hdvd⟩
  · obtain ⟨s, hs⟩ := Nat.exists_eq_add_of_le hge
    refine ⟨m.mantissa * 2 ^ s, ?_⟩
    rw [units_eq, gap, hs, Nat.pow_add, Nat.mul_comm (2 ^ unitBits), Nat.mul_assoc]

end Magnitude

/-- A number beyond the largest finite one is infinite. -/
lemma Binary64.nearest_eq_infinite (negative : Bool) {num den : ℕ} (hden : 0 < den)
    (h : Magnitude.bound * den ≤ num) :
    Binary64.nearest negative num den = .infinite negative := by
  rw [Binary64.nearest, Magnitude.nearest?_eq_none hden h, Option.elim_none]

end ExprLang
