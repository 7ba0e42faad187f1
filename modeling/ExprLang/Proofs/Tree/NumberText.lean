import ExprLang.Proofs.Number.ReadBack
import ExprLang.Proofs.Parse.NumberLiteral
import ExprLang.Proofs.Tree.Encoding

/-!
# Printed numbers

The number of a digit run is printed as a digit run again, and parsing that gives the same number.
Up to `2 ^ 53` it is the numeral of the number that was written: no other numeral than that of a
multiple of ten could stand for it, and beyond `2 ^ 53` those have larger magnitudes
(`Binary64.plain_of_le`).

In JSON the number is printed in the same way below `10 ^ 21`, and with an exponent from there on.
The layout looks at the shortest decimal and not at the number, but as `10 ^ 21` is a magnitude
itself, no decimal that rounds to another one lies on the other side of it
(`Magnitude.exponent_shortest_lt_iff`).

The main statement is `number_readsBack`.
-/

namespace ExprLang

/-! ## The power of ten of a shortest decimal -/

namespace Decimal

/-- A scaled number lies between two powers of ten. -/
lemma decade_scaled {n : ℕ} (hn : 0 < n) (e : ℤ) :
    (10 : ℚ) ^ (scaled n e).exponent ≤ (scaled n e).toRat ∧
      (scaled n e).toRat < 10 ^ ((scaled n e).exponent + 1) := by
  have hlength : 0 < (Nat.toDigits 10 n).length := Nat.length_toDigits_pos
  have hlower : (10 : ℚ) ^ ((Nat.toDigits 10 n).length - 1) ≤ n := by
    exact_mod_cast pow_le_of_pos hn
  have hupper : (n : ℚ) < 10 ^ (Nat.toDigits 10 n).length := by
    exact_mod_cast (Nat.length_toDigits_le_iff (by omega) hlength).1 le_rfl
  have hpoint : (scaled n e).point = (Nat.toDigits 10 n).length + e := rfl
  have hexponent : (scaled n e).exponent = ((Nat.toDigits 10 n).length - 1 : ℕ) + e := by
    rw [exponent, hpoint]
    omega
  have hnext : (scaled n e).exponent + 1 = (Nat.toDigits 10 n).length + e := by omega
  have hstep : (0 : ℚ) < 10 ^ e := zpow_pos (by norm_num) e
  rw [toRat_scaled]
  constructor
  · rw [hexponent, zpow_add₀ (by norm_num), zpow_natCast]
    exact mul_le_mul_of_nonneg_right hlower hstep.le
  · rw [hnext, zpow_add₀ (by norm_num), zpow_natCast]
    exact mul_lt_mul_of_pos_right hupper hstep

/-- The shortest decimal of a magnitude lies between two powers of ten. -/
lemma decade_shortest {m : Magnitude} (hm : m.mantissa ≠ 0) :
    (10 : ℚ) ^ (shortest m).exponent ≤ (shortest m).toRat ∧
      (shortest m).toRat < 10 ^ ((shortest m).exponent + 1) := by
  obtain ⟨top, n, j, hshortest, hhit, -⟩ := exists_shortest_eq m
  rw [hshortest]
  exact decade_scaled (Magnitude.pos_of_mul_mem_interval hm hhit.mem) _

end Decimal

namespace Magnitude

variable {m : Magnitude}

/-- Where a power of ten is a magnitude, the shortest decimal of a number is on the same side of it
as the number. -/
lemma exponent_shortest_lt_iff {M : Magnitude} {k : ℤ} (hM : M.toRat = 10 ^ k)
    (hexponent : (Decimal.shortest M).exponent = k) (hm : m.mantissa ≠ 0) :
    (Decimal.shortest m).exponent < k ↔ m.toRat < 10 ^ k := by
  obtain ⟨hlower, hupper⟩ := Decimal.decade_shortest hm
  have hmem := Decimal.toRat_shortest_mem m
  constructor
  · intro hlt
    by_contra hge
    rw [not_lt] at hge
    -- the power lies between the decimal and the number
    have hbelow : (Decimal.shortest m).toRat ≤ 10 ^ k :=
      hupper.le.trans (zpow_le_zpow_right₀ (by norm_num) (by omega))
    have hpower : M.toRat ∈ m.interval := by
      rw [hM]
      exact mem_interval_of_le_of_le hmem m.toRat_mem_interval hbelow hge
    obtain rfl := eq_of_toRat_mem_interval hpower
    exact hlt.ne hexponent
  · intro hlt
    by_contra hge
    rw [not_lt] at hge
    have habove : (10 : ℚ) ^ k ≤ (Decimal.shortest m).toRat :=
      (zpow_le_zpow_right₀ (by norm_num) hge).trans hlower
    have hpower : M.toRat ∈ m.interval := by
      rw [hM]
      exact mem_interval_of_le_of_le m.toRat_mem_interval hmem hlt.le habove
    obtain rfl := eq_of_toRat_mem_interval hpower
    exact hlt.ne hM

/-- The magnitude of `10 ^ 21`. -/
def tenPow21 : Magnitude := ⟨7629394531250000, 1091, by decide⟩

lemma toRat_tenPow21 : tenPow21.toRat = 10 ^ 21 := by
  have hunits : tenPow21.units = 10 ^ 21 * unitsInOne := by decide +kernel
  rw [toRat_of_units hunits, Nat.cast_pow, Nat.cast_ofNat]

lemma exponent_shortest_tenPow21 : (Decimal.shortest tenPow21).exponent = 21 := by
  decide +kernel

/-- The first digit of a whole number is not behind the point. -/
lemma exponent_shortest_nonneg {k : ℕ} (hk : m.units = k * 2 ^ unitBits) (hm : m.mantissa ≠ 0) :
    0 ≤ (Decimal.shortest m).exponent := by
  obtain ⟨n, e, hshortest, -, -⟩ := Decimal.shortest_of_whole hk (pos_of_units_eq hk hm)
  have hlength : 0 < (Nat.toDigits 10 n).length := Nat.length_toDigits_pos
  have hpoint : (Decimal.scaled n e).point = (Nat.toDigits 10 n).length + e := rfl
  rw [hshortest, Decimal.exponent, hpoint]
  omega

end Magnitude

/-! ## Numbers in JSON -/

/-- A number in exponent notation: a digit other than zero, further digits behind a point, and the
power of ten of the first digit. -/
def IsExponential (power : ℕ) (t : Text) : Prop :=
  ∃ lead fraction, Char.isDigit lead ∧ lead ≠ '0' ∧ (∀ c ∈ fraction, Char.isDigit c) ∧
    t = Text.ofChars (lead :: (if fraction = [] then [] else '.' :: fraction) ++
      'e' :: '+' :: Nat.toDigits 10 power)

/-- With an exponent that is not negative, a decimal is in exponent notation. -/
lemma Decimal.isExponential_scientific {d : Decimal} (h : d.IsProper) (hexponent : 0 ≤ d.exponent) :
    IsExponential d.exponent.toNat (Text.ofChars (d.scientific 1)) := by
  obtain ⟨lead, fraction, hdigits⟩ := List.exists_cons_of_ne_nil h.ne_nil
  have hlength : 0 < (Nat.toDigits 10 d.exponent.toNat).length := Nat.length_toDigits_pos
  have hnat : d.exponent.natAbs = d.exponent.toNat := by omega
  refine ⟨lead, fraction, h.digit lead (by simp [hdigits]), ?_, ?_, ?_⟩
  · rintro rfl
    exact h.head (by rw [hdigits, List.head?_cons])
  · intro c hc
    exact h.digit c (by simp [hdigits, hc])
  · have hwidth : 1 - (Nat.toDigits 10 d.exponent.toNat).length = 0 := by omega
    simp [Decimal.scientific, hdigits, hnat, hwidth, hexponent.not_gt]

namespace Layout

variable {l : Layout} {m : Magnitude}

lemma digits_of_positional (hm : m.mantissa ≠ 0)
    (h : l.positional (Decimal.shortest m).exponent = true) :
    l.digits m = (Decimal.shortest m).positional := by
  simp only [digits, if_neg hm, if_pos h]

lemma digits_of_not_positional (hm : m.mantissa ≠ 0)
    (h : l.positional (Decimal.shortest m).exponent = false) :
    l.digits m = (Decimal.shortest m).scientific l.exponentWidth := by
  simp only [digits, if_neg hm, h, Bool.false_eq_true, ↓reduceIte]

end Layout

namespace Json

variable {m : Magnitude} {k : ℕ}

/-- Numbers are written with an exponent from `10 ^ 21` on. -/
lemma exponent_shortest_lt_iff (hm : m.mantissa ≠ 0) :
    (Decimal.shortest m).exponent < 21 ↔ m.toRat < 10 ^ 21 :=
  Magnitude.exponent_shortest_lt_iff Magnitude.toRat_tenPow21
    Magnitude.exponent_shortest_tenPow21 hm

/-- Below `10 ^ 21` a whole number has its plain form in JSON. -/
lemma numberText_of_lt (hk : m.units = k * 2 ^ unitBits) (hlt : m.toRat < 10 ^ 21) :
    numberLayout.text false m = Binary64.plain (.finite false m) := by
  have hdigits : numberLayout.digits m = Binary64.plainLayout.digits m := by
    by_cases hm : m.mantissa = 0
    · rw [Layout.digits, Layout.digits, if_pos hm, if_pos hm]
    · have hlower := Magnitude.exponent_shortest_nonneg hk hm
      have hupper := (exponent_shortest_lt_iff hm).2 hlt
      have hpositional : numberLayout.positional (Decimal.shortest m).exponent = true := by
        simp only [numberLayout, Bool.and_eq_true, decide_eq_true_eq]
        omega
      have hplain : Binary64.plainLayout.positional (Decimal.shortest m).exponent = true := rfl
      rw [Layout.digits_of_positional hm hpositional, Layout.digits_of_positional hm hplain]
  rw [Binary64.plain, Layout.text, Layout.text, hdigits]

/-- From `10 ^ 21` on a number has an exponent in JSON. -/
lemma isExponential_numberText (hge : 10 ^ 21 ≤ m.toRat) :
    ∃ power, 21 ≤ power ∧ IsExponential power (numberLayout.text false m) := by
  have hm : m.mantissa ≠ 0 := by
    intro hzero
    rw [Magnitude.toRat_of_mantissa_eq_zero hzero] at hge
    exact absurd hge (by norm_num)
  have hexponent := (exponent_shortest_lt_iff hm).not.2 hge.not_gt
  have hpositional : numberLayout.positional (Decimal.shortest m).exponent = false := by
    simp only [numberLayout, Bool.and_eq_false_iff, decide_eq_false_iff_not]
    omega
  have hwidth : numberLayout.exponentWidth = 1 := rfl
  refine ⟨(Decimal.shortest m).exponent.toNat, by omega, ?_⟩
  rw [Layout.text, Layout.digits_of_not_positional hm hpositional, hwidth,
    if_neg Bool.false_ne_true, List.nil_append]
  exact Decimal.isExponential_scientific (Decimal.isProper_shortest hm) (by omega)

end Json

/-- The JSON text of a number literal with a given text for its value. -/
def literalJson (value : Text) : Text :=
  utf8 "\x7b\"type\":\"NumericLiteral\",\"value\":" ++ value ++ utf8 "\x7d"

/-- A number literal is written in JSON with the name of its kind in front of its value. -/
lemma jsonText_number (v : Binary64) :
    (Node.expression (.number v)).jsonText =
      literalJson (v.toJson.write .compact Json.escape 1) := by
  have hhead : utf8 "\x7b" ++ (Json.quote Json.escape (utf8 "type") ++ utf8 ":" ++
      Json.quote Json.escape (utf8 "NumericLiteral")) ++
      (utf8 "," ++ (Json.quote Json.escape (utf8 "value") ++ utf8 ":")) =
        utf8 "\x7b\"type\":\"NumericLiteral\",\"value\":" := by decide +kernel
  have hlimit : (Node.expression (.number v)).toJson.nesting ≤ Json.depthLimit := by
    rw [Node.toJson, Expr.nesting_number]
    decide
  rw [Node.jsonText_of_le hlimit, Node.toJson, Expr.toJson, Json.node, Json.write_object,
    literalJson, ← hhead]
  simp only [List.map_cons, List.map_nil, Json.enclose, Json.writeMember, Json.Spacing.compact,
    Json.write, Json.writeOnto, List.flatMap_cons, List.flatMap_nil, List.append_nil,
    List.append_assoc, Nat.zero_add]

/-! ## The plain form of a literal -/

/-- A numeral begins with a zero only if it is the one of zero. -/
lemma Text.ofNat_of_head? {n : ℕ} (h : (Text.ofNat n).head? = some 0x30) :
    Text.ofNat n = [0x30] := by
  rcases Nat.eq_zero_or_pos n with rfl | hpos
  · rfl
  · exfalso
    obtain ⟨c, cs, hcs⟩ := List.exists_cons_of_ne_nil (Nat.toDigits_ne_nil (n := n) (b := 10))
    have hc : c.isDigit := by
      apply Nat.isDigit_of_mem_toDigits (n := n) (by omega) le_rfl
      simp [hcs]
    obtain ⟨b, hb, hnat⟩ := exists_utf8EncodeChar_of_isDigit hc
    rw [Text.ofNat, hcs, Text.ofChars_cons, hb, List.singleton_append, List.head?_cons] at h
    apply Decimal.head?_toDigits_ne hpos
    obtain rfl := Option.some.inj h
    rw [hcs, List.head?_cons, Option.some.injEq]
    exact Char.toNat_inj.1 hnat.symm

/-- Beyond `2 ^ 53 + 1`, the one whole number that is rounded down to `2 ^ 53`, magnitudes are
larger. -/
lemma Magnitude.lt_toRat_of_lt {n : ℕ} {m : Magnitude} (h : nearest? n 1 = some m)
    (hlt : 2 ^ 53 + 1 < n) : 2 ^ 53 < m.toRat := by
  have hbound : 2 ^ 53 + 2 < overflowBound * 1 := by decide +kernel
  obtain ⟨M, hM⟩ := exists_nearest?_eq Nat.one_pos hbound
  have hself := isNearest_mul (2 ^ 52 + 1) (Nat.two_pow_pos 1)
  have hsize : (2 ^ 53 + 2).size = 1 + 53 := by decide +kernel
  have hrat := toRat_of_size_eq hM hsize hself
  have hle := toRat_le_of_nearest? hM h (Nat.succ_le_of_lt hlt)
  rw [hrat] at hle
  exact lt_of_lt_of_le (by norm_num) hle

/-- The plain form of a whole number up to `2 ^ 53` is its numeral. -/
lemma Binary64.plain_of_le {n : ℕ} {m : Magnitude} (h : Magnitude.nearest? n 1 = some m)
    (hn : n ≤ 2 ^ 53) : plain (.finite false m) = Text.ofNat n := by
  have hrat := Magnitude.toRat_of_le h hn
  obtain ⟨k, hk⟩ := Magnitude.exists_units_eq_of_nearest? h
  have hkn : k = n := by
    have hrat' : m.toRat = k := Magnitude.toRat_of_units hk
    exact_mod_cast hrat'.symm.trans hrat
  obtain ⟨a, hplain, hnearest, ha⟩ := plain_of_whole hk
  have han : a = n := by
    rcases ha with ha | ⟨b, rfl⟩
    · exact ha.trans hkn
    · -- a multiple of ten is not `2 ^ 53 + 1`, and further numbers have larger magnitudes
      have hle : 10 * b ≤ 2 ^ 53 := by
        by_contra hgt
        have hlarge := Magnitude.lt_toRat_of_lt hnearest (by omega)
        have hn' : (n : ℚ) ≤ 2 ^ 53 := by exact_mod_cast hn
        rw [hrat] at hlarge
        exact absurd hn' hlarge.not_ge
      have hrat' := Magnitude.toRat_of_le hnearest hle
      exact_mod_cast hrat'.symm.trans hrat
  rw [hplain, han]

/-! ## Numbers from digit runs -/

/-- The number of a digit run is printed as a digit run without a superfluous zero, which is parsed
as the same number; it is the numeral of the number that the run denotes, up to `2 ^ 53`.  Its text
in JSON is read as the same number, too: it is the same text below `10 ^ 21`, and a text in exponent
notation from there on.  A number beyond the finite ones is printed as a word and is null in
JSON. -/
theorem number_readsBack (d : Text) (hd : IsDigitRun d) :
    ∃ v, parse (d ++ utf8 ";") = .ok (.ofNumber v) ∧
      ((∃ m, v = .finite false m ∧ IsDigitRun v.plain ∧
          (v.plain.head? = some 0x30 → v.plain = [0x30]) ∧
          (Program.ofNumber v).canonical = v.plain ++ utf8 ";" ∧
          parse (v.plain ++ utf8 ";") = .ok (.ofNumber v) ∧
          (Numeral.digitsValue 10 d ≤ 2 ^ 53 → v.plain = Text.ofNat (Numeral.digitsValue 10 d)) ∧
          ∃ t, v.toJson = .number t ∧
            (Node.expression (.number v)).jsonText = literalJson t ∧ Binary64.ofText t = v ∧
            (m.toRat < 10 ^ 21 → t = v.plain) ∧
            (10 ^ 21 ≤ m.toRat → ∃ power, 21 ≤ power ∧ IsExponential power t)) ∨
        v = .infinite false ∧ v.plain = utf8 "Infinity" ∧ v.toJson = .null ∧
          (Node.expression (.number v)).jsonText = literalJson (utf8 "null")) := by
  refine ⟨_, hd.parse_eq, ?_⟩
  rw [Binary64.nearest]
  cases hnearest : Magnitude.nearest? (Numeral.digitsValue 10 d) 1 with
  | none =>
    right
    exact ⟨rfl, rfl, rfl, jsonText_number _⟩
  | some m =>
    left
    obtain ⟨k, hk⟩ := Magnitude.exists_units_eq_of_nearest? hnearest
    obtain ⟨n, hplain, hn, -⟩ := Binary64.plain_of_whole hk
    obtain ⟨hrun, hvalue⟩ := isDigitRun_ofNat n
    have hparse : parse (Text.ofNat n ++ utf8 ";") = .ok (.ofNumber (.finite false m)) := by
      rw [hrun.parse_eq, hvalue, Binary64.nearest, hn, Option.elim_some]
    refine ⟨m, rfl, ?_, ?_, ?_, ?_, Binary64.plain_of_le hnearest, Json.numberLayout.text false m,
      rfl, ?_, Layout.ofText_text _ false m, Json.numberText_of_lt hk,
      Json.isExponential_numberText⟩
    · rwa [Option.elim_some, hplain]
    · rw [Option.elim_some, hplain]
      exact Text.ofNat_of_head?
    · simp [Program.ofNumber, Program.canonical, Stmt.canonical, Text.join]
    · rwa [Option.elim_some, hplain]
    · rw [Option.elim_some, jsonText_number, Binary64.toJson, Json.write, Json.writeOnto,
        List.append_nil]

/-- Twenty-one nines, which are rounded up to `10 ^ 21`. -/
def ninesRun : Text := utf8 "999999999999999999999"

/-- The nines are printed as a one with zeros, in JSON as a one with an exponent, and both texts are
read as the number of the nines. -/
theorem number_readsBack_nines :
    IsDigitRun ninesRun ∧ ∃ v, parse (ninesRun ++ utf8 ";") = .ok (.ofNumber v) ∧
      v.plain = utf8 "1000000000000000000000" ∧
      parse (utf8 "1000000000000000000000" ++ utf8 ";") = .ok (.ofNumber v) ∧
      (Node.expression (.number v)).jsonText = literalJson (utf8 "1e+21") ∧
      Binary64.ofText (utf8 "1e+21") = v ∧ IsExponential 21 (utf8 "1e+21") := by
  have hrun : IsDigitRun ninesRun := ⟨by decide, List.all_eq_true.1 rfl⟩
  have hvalue : Binary64.nearest false (Numeral.digitsValue 10 ninesRun) 1 =
      .finite false Magnitude.tenPow21 := by decide +kernel
  have hplain : Binary64.plain (.finite false Magnitude.tenPow21) =
      utf8 "1000000000000000000000" := by decide +kernel
  have hjson : Json.numberLayout.text false Magnitude.tenPow21 = utf8 "1e+21" := by decide +kernel
  obtain ⟨v, hparse, hcases⟩ := number_readsBack ninesRun hrun
  obtain rfl : v = .finite false Magnitude.tenPow21 := by
    have hparse' := hrun.parse_eq
    rw [hparse, hvalue] at hparse'
    cases hparse'
    rfl
  obtain ⟨m, -, -, -, -, hparse', -, t, ht, htext, hread, -, -⟩ | ⟨hinfinite, -⟩ := hcases
  · rw [Binary64.toJson, hjson] at ht
    obtain rfl := Json.number.inj ht
    rw [hplain] at hparse'
    refine ⟨hrun, _, hparse, hplain, hparse', htext, hread, '1', [], rfl, by decide, by simp, ?_⟩
    decide
  · cases hinfinite

end ExprLang
