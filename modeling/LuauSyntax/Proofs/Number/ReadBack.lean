import LuauSyntax.Grouping
import LuauSyntax.Proofs.Number.Numeral
import LuauSyntax.Proofs.Number.Rounded

namespace LuauSyntax.Number

def Numeral.number (n : Numeral) : Number :=
  ofDecimal n.negative n.digits (-n.fraction.length)

def truncated (q : ℚ) : Int :=
  q.num.tdiv q.den

def toInt64 (x : Number) : Int64 :=
  .ofInt (max Int64.minValue.toInt (min Int64.maxValue.toInt (truncated x.value)))

theorem toInt_toInt64 {x : Number} {i : Int} (hx : x.value = i) (hi : i.natAbs < 10 ^ 15) :
    x.toInt64.toInt = i := by
  have htruncated : truncated x.value = i := by simp [truncated, hx]
  have hmin : Int64.minValue.toInt = -2 ^ 63 := by decide
  have hmax : Int64.maxValue.toInt = 2 ^ 63 - 1 := by decide
  rw [toInt64, htruncated, hmin, hmax, min_eq_right (by omega), max_eq_right (by omega)]
  exact Int64.toInt_ofInt_of_le (by omega) (by omega)

theorem text_eq {x : Number} (hnan : x.isNaN = false) (hinf : x.isInfinite = false) :
    x.text = (if x.isNegative then "-" else "") ++ x.decimal.text := by
  rw [text, hnan, hinf, magnitudeText_eq]
  rfl

theorem Decimal.value_nonneg (d : Decimal) : 0 ≤ d.value :=
  mul_nonneg (Nat.cast_nonneg _) (zpow_nonneg (by norm_num) _)

theorem isNearest_decimal {x : Number} (hnan : x.isNaN = false) :
    IsNearest (signed x.isNegative x.decimal.value) x :=
  isNearest_of_catches hnan x.decimal.value_nonneg x.catches_decimal

theorem isNearest_decimal_iff {x : Number} (hnan : x.isNaN = false) (y : Number) :
    IsNearest (signed x.isNegative x.decimal.value) y ∧ y.isNegative = x.isNegative ↔ y = x := by
  constructor
  · rintro ⟨hy, hs⟩
    exact hy.unique hs (isNearest_decimal hnan) rfl
  · rintro rfl
    exact ⟨isNearest_decimal hnan, rfl⟩

theorem natAbs?_of_value {x : Number} {i : Int} (hx : x.value = i) : x.natAbs? = some i.natAbs := by
  have habs : |x.value| = x.size := by
    rw [value, abs_signed, abs_of_nonneg x.size_nonneg]
  rw [natAbs?_eq_some_iff, ← habs, hx, Nat.cast_natAbs, Int.cast_abs]

theorem value_decimal_of_natAbs? {x : Number} {n : Nat} (hn : x.natAbs? = some n)
    (hlt : n < 10 ^ 15) : x.decimal.value = n := by
  cases hzero : x.isZero with
  | false =>
      obtain ⟨k, hscale, hdigits⟩ := shortest_of_natAbs? hzero hn hlt
      rw [decimal, hzero, if_neg Bool.false_ne_true, Decimal.value, hscale, zpow_natCast, hdigits]
      push_cast
      rfl
  | true =>
      obtain rfl : 0 = n := Option.some.inj ((natAbs?_of_isZero hzero).symm.trans hn)
      simp [decimal, hzero, Decimal.value]

theorem text_of_value {x : Number} (hnan : x.isNaN = false) (hinf : x.isInfinite = false) {i : Int}
    (hx : x.value = i) (hi : i.natAbs < 10 ^ 15) :
    x.text = if x.isNegative ∧ i = 0 then "-0" else toString i := by
  have hsize := x.size_nonneg
  have hn := natAbs?_of_value hx
  have hshort : x.isShort = true := by
    simp only [isShort, hnan, hinf, hn, Bool.not_false, Bool.true_and, Option.any_some]
    exact decide_eq_true hi
  obtain ⟨n, hn', -, htext⟩ := text_of_isShort hshort
  obtain rfl : i.natAbs = n := Option.some.inj (hn.symm.trans hn')
  rw [htext, ← Nat.repr_eq_ofList_toDigits, Int.toString_eq_repr, Int.repr_eq_if]
  rw [value] at hx
  cases hneg : x.isNegative with
  | false =>
      rw [hneg] at hx
      have hnonneg : 0 ≤ i := by
        have h : (0 : ℚ) ≤ i := hx ▸ hsize
        exact_mod_cast h
      have hnat : i.natAbs = i.toNat := by omega
      simp [hnonneg, hnat]
  | true =>
      rw [hneg] at hx
      have hnonpos : i ≤ 0 := by
        have h : (i : ℚ) ≤ 0 := hx ▸ neg_nonpos.mpr hsize
        exact_mod_cast h
      rcases hnonpos.lt_or_eq with hlt | rfl
      · have hnat : i.natAbs = (-i).toNat := by omega
        simp [hlt.ne, not_le.mpr hlt, hnat]
      · rfl

theorem text_reads_back {x : Number} (hnan : x.isNaN = false) (hinf : x.isInfinite = false) :
    ∃ n : Numeral, x.text = n.text ∧ Numeral.read? x.text = some n ∧ n.negative = x.isNegative ∧
      (Expr.literal (.number x)).isWrappedUnder .caret .left = n.negative ∧
      (Expr.literal (.number x)).isWrappedAfter .minus = n.negative ∧
      (∀ y : Number, IsNearest n.value y ∧ y.isNegative = n.negative ↔ y = x) ∧ n.number = x ∧
      x.text = (if x.isNegative then "-" else "") ++ x.decimal.text ∧
      (∀ d : Decimal, IsNearest (signed x.isNegative d.value) x → x.decimal.width ≤ d.width) ∧
      (∀ i : Int, x.value = i → i.natAbs < 10 ^ 15 → x.toInt64.toInt = i ∧ n.value = i ∧
        x.text = if x.isNegative ∧ i = 0 then "-0" else toString x.toInt64.toInt) := by
  set n := x.decimal.numeral x.isNegative with hn
  have hnegative : n.negative = x.isNegative := Decimal.negative_numeral _ _
  have hvalue : n.value = signed x.isNegative x.decimal.value := Decimal.value_numeral _ _
  have htext : x.text = n.text := (text_eq hnan hinf).trans (Decimal.text_numeral _ _).symm
  have hnearest (y : Number) : IsNearest n.value y ∧ y.isNegative = n.negative ↔ y = x := by
    rw [hvalue, hnegative]
    exact isNearest_decimal_iff hnan y
  refine ⟨n, htext, htext ▸ n.read?_text, hnegative, ?_, ?_, hnearest, ?_, text_eq hnan hinf, ?_,
    ?_⟩
  · rw [hnegative]
    rfl
  · rw [hnegative]
    rfl
  · refine (hnearest _).mp ?_
    rw [Numeral.value_eq]
    exact isNearest_ofDecimal _ _ _
  · exact fun d hd => width_decimal_le (hd.catches rfl hinf d.value_nonneg)
  · intro i hi hlt
    have hint := toInt_toInt64 hi hlt
    refine ⟨hint, ?_, ?_⟩
    · rw [hvalue, ← hi, value, value_decimal_of_natAbs? (natAbs?_of_value hi) hlt]
      exact congrArg (signed x.isNegative) (natAbs?_eq_some_iff.mp (natAbs?_of_value hi)).symm
    · rw [hint]
      exact text_of_value hnan hinf hi hlt

theorem text_reads_back_negative_zero :
    let x : Number := ⟨0x8000000000000000⟩
    x.isNaN = false ∧ x.isInfinite = false ∧ x.value = (0 : Int) ∧ x.text = "-0" ∧
      x.toInt64.toInt = 0 ∧
      ∃ n : Numeral, n.text = "-0" ∧ Numeral.read? "-0" = some n ∧ n.negative = true ∧
        ∀ y : Number, IsNearest n.value y ∧ y.isNegative = n.negative ↔ y = x := by
  intro x
  have hnan : x.isNaN = false := by decide
  have hinf : x.isInfinite = false := by decide
  have hsign : x.isNegative = true := by decide
  have hvalue : x.value = (0 : Int) := by
    rw [value, size_of_magnitude_zero (by decide), signed_zero, Int.cast_zero]
  obtain ⟨n, htext, hread, hnegative, -, -, hnearest, -, -, -, hint⟩ := text_reads_back hnan hinf
  obtain ⟨hconverted, -, hzero⟩ := hint 0 hvalue (by decide)
  rw [if_pos ⟨hsign, rfl⟩] at hzero
  exact ⟨hnan, hinf, hvalue, hzero, hconverted, n, htext.symm.trans hzero, hzero ▸ hread,
    hnegative.trans hsign, hnearest⟩

end LuauSyntax.Number
