import ExprLang.Proofs.Number.Nearest
import ExprLang.Proofs.Parse.BareForm

/-!
# Number literals

A digit run denotes a whole number, and the literal that is made of it is that number correctly
rounded (`Binary64.IsRounded`): the closest magnitude, which is the number itself up to `2 ^ 53` and
the number rounded to 53 bits above that, or infinity from the overflow bound on.

The main statement is `parse_number_rounded`.  It holds of every number in every program that comes
from a text, since a number is read from a digit run wherever it stands.  What a digit run denotes
settles its literal, so zeros at the front do not matter, and by `Binary64.nearest_le_nearest` a
larger number never has a smaller literal.
-/

namespace ExprLang

namespace Binary64

/-! ## Correctly rounded numbers -/

/-- A number is the correctly rounded value of a whole number. -/
structure IsRounded (n : ℕ) (v : Binary64) : Prop where
  /-- It is infinite from the overflow bound on. -/
  infinite_iff : v = .infinite false ↔ Magnitude.overflowBound ≤ n
  /-- Below that it is the closest finite number, which is exact as long as that is possible and has
  53 bits otherwise. -/
  finite : n < Magnitude.overflowBound → ∃ m, v = .finite false m ∧ m.IsClosest n ∧
    (n ≤ 2 ^ 53 → m.toRat = n) ∧
    (2 ^ 53 < n → ∃ q, IsNearest n (2 ^ (n.size - 53)) q ∧ m.toRat = q * 2 ^ (n.size - 53))

/-- Rounding a whole number is correct. -/
lemma isRounded_nearest (n : ℕ) : IsRounded n (.nearest false n 1) := by
  unfold nearest
  cases hnearest : Magnitude.nearest? n 1 with
  | none =>
    have hbound := Magnitude.nearest?_one_eq_none_iff.1 hnearest
    exact ⟨⟨fun _ => hbound, fun _ => rfl⟩, fun hlt => absurd hbound (Nat.not_le_of_lt hlt)⟩
  | some m =>
    have hbound : ¬ Magnitude.overflowBound ≤ n := by
      intro hle
      rw [Magnitude.nearest?_one_eq_none_iff.2 hle] at hnearest
      cases hnearest
    have hmem := Magnitude.nearest?_one_eq_some_iff.1 hnearest
    constructor
    · constructor
      · intro h
        cases h
      · intro hle
        exact absurd hle hbound
    · intro _
      exact ⟨m, rfl, Magnitude.isClosest_of_mem_interval hmem, Magnitude.toRat_of_le hnearest,
        fun _ => Magnitude.exists_toRat_eq hnearest⟩

/-! ## The order of numbers -/

/-- The place of a number on the line of the rational numbers with its two ends; NaN has none. -/
def place? : Binary64 → Option (WithBot (WithTop ℚ))
  | .nan => none
  | .infinite false => some ⊤
  | .infinite true => some ⊥
  | .finite false m => some ((m.toRat : WithTop ℚ) : WithBot (WithTop ℚ))
  | .finite true m => some ((-m.toRat : WithTop ℚ) : WithBot (WithTop ℚ))

/-- A number lies at or below another. -/
def Le (v w : Binary64) : Prop := ∃ x y, v.place? = some x ∧ w.place? = some y ∧ x ≤ y

/-- A larger whole number is never rounded to a smaller number. -/
lemma nearest_le_nearest {n n' : ℕ} (h : n ≤ n') :
    Le (.nearest false n 1) (.nearest false n' 1) := by
  unfold nearest
  cases hn' : Magnitude.nearest? n' 1 with
  | none =>
    -- nothing lies above infinity
    cases Magnitude.nearest? n 1 with
    | none => exact ⟨_, _, rfl, rfl, le_top⟩
    | some m => exact ⟨_, _, rfl, rfl, le_top⟩
  | some m' =>
    cases hn : Magnitude.nearest? n 1 with
    | none =>
      have hbound := (Magnitude.nearest?_one_eq_none_iff.1 hn).trans h
      rw [Magnitude.nearest?_one_eq_none_iff.2 hbound] at hn'
      cases hn'
    | some m =>
      refine ⟨_, _, rfl, rfl, ?_⟩
      rw [WithBot.coe_le_coe, WithTop.coe_le_coe]
      exact Magnitude.toRat_le_of_nearest? hn hn' h

end Binary64

/-! ## Digit runs as literals -/

/-- A program that is one number. -/
def Program.ofNumber (v : Binary64) : Program := ⟨[.expression (.number v)]⟩

/-- A digit run and a semicolon are parsed as the number that the run denotes. -/
lemma IsDigitRun.parse_eq {d : Text} (h : IsDigitRun d) :
    parse (d ++ utf8 ";") = .ok (.ofNumber (.nearest false (Numeral.digitsValue 10 d) 1)) := by
  rw [← h.ofText_eq]
  have hnumber : ReadsAs d [.number (.ofText d)] (utf8 ";") := by
    have hfits : Rule.number.Fits d (utf8 ";") := ⟨h.ne_nil, h.digit, by rintro b ⟨⟩; rfl⟩
    exact .of_fits hfits rfl fun _ => ⟨rfl, rfl⟩
  have hsemicolon : ReadsAs (utf8 ";") [.semicolon] [] := by
    have hfits : Rule.semicolon.Fits (utf8 ";") [] := rfl
    exact .of_fits hfits rfl fun _ => rfl
  exact (hnumber.append hsemicolon).parse_eq_ok (by simp [Program.ofNumber]) rfl

/-- Zeros in front of a digit run make a digit run that denotes the same number. -/
lemma IsDigitRun.zeros_append {d : Text} (h : IsDigitRun d) (z : ℕ) :
    IsDigitRun (List.replicate z 0x30 ++ d) ∧
      Numeral.digitsValue 10 (List.replicate z 0x30 ++ d) = Numeral.digitsValue 10 d := by
  have hzero : ∀ b ∈ List.replicate z (0x30 : UInt8), (b == 0x30) = true := by
    intro b hb
    rw [List.eq_of_mem_replicate hb]
    rfl
  constructor
  · refine ⟨by simp [h.ne_nil], ?_⟩
    intro b hb
    rcases List.mem_append.1 hb with hb | hb
    · rw [List.eq_of_mem_replicate hb]
      rfl
    · exact h.digit b hb
  · rw [← Numeral.digitsValue_significant, Numeral.Parts.significant,
      List.dropWhile_append_of_pos hzero]
    exact Numeral.digitsValue_significant 10 d

/-- A number that stands in a text is a digit run there. -/
lemma isDigitRun_of_mem_drain {c : Cursor} {t : Token} (ht : t ∈ c.drain.1)
    (hkind : t.kind = .number) : IsDigitRun t.value := by
  obtain ⟨rule, r, hrule, hfits⟩ := Cursor.exists_fits_of_mem_drain ht
  obtain rfl : rule = .number := by cases rule <;> simp_all [Rule.kind?]
  exact ⟨hfits.1, hfits.2.1⟩

/-- The literal of a digit run is the whole number that it denotes, correctly rounded; zeros at the
front make no difference.  Of two digit runs the one that denotes a larger number never has a
smaller literal.  In every program that comes from a text, each number is the correctly rounded
value of the digit run that stands in its place. -/
theorem parse_number_rounded :
    (∀ d, IsDigitRun d → ∃ v, parse (d ++ utf8 ";") = .ok (.ofNumber v) ∧
      v.IsRounded (Numeral.digitsValue 10 d) ∧
      ∀ z, parse (List.replicate z 0x30 ++ d ++ utf8 ";") = .ok (.ofNumber v)) ∧
    (∀ d d' v v', IsDigitRun d → IsDigitRun d' →
      parse (d ++ utf8 ";") = .ok (.ofNumber v) → parse (d' ++ utf8 ";") = .ok (.ofNumber v') →
      Numeral.digitsValue 10 d ≤ Numeral.digitsValue 10 d' → v.Le v') ∧
    ∀ src p, parse src = .ok p →
      List.Forall₂ (fun t x => ∀ v, x = Symbol.number v →
        IsDigitRun t.value ∧ v.IsRounded (Numeral.digitsValue 10 t.value))
        (Cursor.ofText src).drain.1 p.yield := by
  refine ⟨?_, ?_, ?_⟩
  · intro d hd
    refine ⟨_, hd.parse_eq, Binary64.isRounded_nearest _, ?_⟩
    intro z
    obtain ⟨hrun, hvalue⟩ := hd.zeros_append z
    rw [hrun.parse_eq, hvalue]
  · intro d d' v v' hd hd' hv hv' hle
    rw [hd.parse_eq] at hv
    rw [hd'.parse_eq] at hv'
    cases hv
    cases hv'
    exact Binary64.nearest_le_nearest hle
  · intro src p hparse
    obtain ⟨-, -, hspell⟩ := spell_of_parse hparse
    have hrun : ∀ t ∈ (Cursor.ofText src).drain.1, t.kind = .number → IsDigitRun t.value := by
      intro t ht
      exact isDigitRun_of_mem_drain ht
    apply ((List.forall₂_and_left _ _).2 ⟨hrun, hspell⟩).imp
    rintro t x ⟨hrun, hx⟩ v rfl
    obtain ⟨hkind, hvalue⟩ := hx
    rw [(hrun hkind).ofText_eq] at hvalue
    exact ⟨hrun hkind, hvalue ▸ Binary64.isRounded_nearest _⟩

/-- The numeral of `2 ^ 53 + 1`, which lies halfway between two magnitudes. -/
def tieRun : Text := utf8 "9007199254740993"

/-- The numeral of the next whole number, which is a magnitude. -/
def aboveTieRun : Text := utf8 "9007199254740994"

/-- The tie goes to the even mantissa, which is the one below, also behind zeros, and the literal of
the next whole number is not smaller. -/
theorem parse_number_rounded_tie :
    IsDigitRun tieRun ∧ IsDigitRun aboveTieRun ∧
      ∃ v w m, parse (tieRun ++ utf8 ";") = .ok (.ofNumber v) ∧
        parse (List.replicate 2 0x30 ++ tieRun ++ utf8 ";") = .ok (.ofNumber v) ∧
        v = .finite false m ∧ m.toRat = 2 ^ 53 ∧
        parse (aboveTieRun ++ utf8 ";") = .ok (.ofNumber w) ∧ v.Le w ∧
        List.Forall₂ (fun t x => ∀ v, x = Symbol.number v →
          IsDigitRun t.value ∧ v.IsRounded (Numeral.digitsValue 10 t.value))
          (Cursor.ofText (tieRun ++ utf8 ";")).drain.1 (Program.ofNumber v).yield := by
  have hrun : IsDigitRun tieRun := ⟨by decide, List.all_eq_true.1 rfl⟩
  have hrun' : IsDigitRun aboveTieRun := ⟨by decide, List.all_eq_true.1 rfl⟩
  have hvalue : Numeral.digitsValue 10 tieRun = 2 ^ 53 + 1 := by decide +kernel
  have hvalue' : Numeral.digitsValue 10 aboveTieRun = 2 ^ 53 + 2 := by decide +kernel
  obtain ⟨hliteral, hmono, hplaces⟩ := parse_number_rounded
  obtain ⟨v, hparse, hrounded, hzeros⟩ := hliteral tieRun hrun
  obtain ⟨w, hparse', -, -⟩ := hliteral aboveTieRun hrun'
  have hle := hmono tieRun aboveTieRun v w hrun hrun' hparse hparse' (by omega)
  have hbound : 2 ^ 53 + 1 < Magnitude.overflowBound := by decide +kernel
  have hsize : Nat.size (2 ^ 53 + 1) - 53 = 1 := by decide +kernel
  rw [hvalue] at hrounded
  obtain ⟨m, rfl, -, -, hlarge⟩ := hrounded.finite hbound
  obtain ⟨q, hq, hm⟩ := hlarge (Nat.lt_succ_self _)
  rw [hsize] at hq hm
  have heven : IsNearest (2 ^ 53 + 1) (2 ^ 1) (2 ^ 52) := ⟨by norm_num, by norm_num, by norm_num⟩
  rw [hq.unique (by norm_num) heven] at hm
  refine ⟨hrun, hrun', _, w, m, hparse, hzeros 2, rfl, ?_, hparse', hle, hplaces _ _ hparse⟩
  rw [hm]
  norm_num

end ExprLang
