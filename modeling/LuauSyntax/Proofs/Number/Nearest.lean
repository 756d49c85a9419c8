import LuauSyntax.Proofs.Number.Short

namespace LuauSyntax.Number

def units (m : Nat) : Nat :=
  (if m / 2 ^ 52 = 0 then m % 2 ^ 52 else 2 ^ 52 + m % 2 ^ 52) * 2 ^ (max (m / 2 ^ 52) 1 - 1)

def spacing (m : Nat) : Nat :=
  2 ^ (max (m / 2 ^ 52) 1 - 1)

theorem units_succ (m : Nat) : units (m + 1) = units m + spacing m := by
  rcases Nat.lt_or_ge (m % 2 ^ 52 + 1) (2 ^ 52) with hlt | hge
  · have hdiv : (m + 1) / 2 ^ 52 = m / 2 ^ 52 := by omega
    have hmod : (m + 1) % 2 ^ 52 = m % 2 ^ 52 + 1 := by omega
    simp only [units, spacing, hdiv, hmod]
    split <;> ring
  · -- the fraction carries into the exponent field
    have hdiv : (m + 1) / 2 ^ 52 = m / 2 ^ 52 + 1 := by omega
    have hmod : (m + 1) % 2 ^ 52 = 0 := by omega
    have hfull : m % 2 ^ 52 = 2 ^ 52 - 1 := by omega
    simp only [units, spacing, hdiv, hmod, hfull]
    cases m / 2 ^ 52 with
    | zero => norm_num
    | succ e =>
        have h₁ : max (e + 1) 1 - 1 = e := by omega
        have h₂ : max (e + 1 + 1) 1 - 1 = e + 1 := by omega
        simp only [h₁, h₂, Nat.succ_ne_zero, if_false, pow_succ]
        omega

theorem spacing_pos (m : Nat) : 0 < spacing m :=
  Nat.two_pow_pos _

theorem units_strictMono : StrictMono units := by
  refine strictMono_nat_of_lt_succ fun m => ?_
  rw [units_succ]
  exact Nat.lt_add_of_pos_right (spacing_pos m)

theorem spacing_succ (m : Nat) :
    spacing (m + 1) =
      if (m + 1) % 2 ^ 52 = 0 ∧ 1 < (m + 1) / 2 ^ 52 then 2 * spacing m else spacing m := by
  simp only [spacing]
  split
  · have hdiv : max ((m + 1) / 2 ^ 52) 1 - 1 = max (m / 2 ^ 52) 1 - 1 + 1 := by omega
    rw [hdiv, pow_succ]
    exact Nat.mul_comm _ _
  · have hdiv : max ((m + 1) / 2 ^ 52) 1 = max (m / 2 ^ 52) 1 := by omega
    rw [hdiv]

theorem magnitude_lt (x : Number) : x.magnitude < 2 ^ 63 :=
  Nat.mod_lt _ (by decide)

theorem isNaN_eq_false_iff {x : Number} : x.isNaN = false ↔ x.magnitude ≤ 2047 * 2 ^ 52 := by
  have hm := x.magnitude_eq
  have hlt := x.magnitude_lt
  have hf := x.fraction_lt
  simp only [isNaN, Bool.and_eq_false_iff, beq_eq_false_iff_ne, bne_eq_false_iff_eq]
  omega

theorem magnitude_lt_of_finite {x : Number} (hnan : x.isNaN = false)
    (hinf : x.isInfinite = false) : x.magnitude < 2047 * 2 ^ 52 := by
  have hm := x.magnitude_eq
  have hle := isNaN_eq_false_iff.mp hnan
  have hf := x.fraction_lt
  simp only [isInfinite, Bool.and_eq_false_iff, beq_eq_false_iff_ne] at hinf
  omega

theorem toNat_bits (x : Number) :
    x.bits.toNat = (if x.isNegative then 2 ^ 63 else 0) + x.magnitude := by
  have hlt := x.bits.toNat_lt
  simp only [isNegative, magnitude, Nat.pow_eq, decide_eq_true_eq]
  split <;> omega

theorem eq_of_magnitude_eq {x y : Number} (hm : x.magnitude = y.magnitude)
    (hs : x.isNegative = y.isNegative) : x = y := by
  have hbits : x.bits.toNat = y.bits.toNat := by rw [toNat_bits, toNat_bits, hm, hs]
  cases x
  cases y
  exact congrArg mk (UInt64.toNat_inj.mp hbits)

theorem toNat_bits_ofMagnitude {m : Nat} (hm : m < 2 ^ 63) (negative : Bool) :
    (ofMagnitude negative m).bits.toNat = (if negative then 2 ^ 63 else 0) + m := by
  refine UInt64.toNat_ofNat_of_lt ?_
  cases negative <;> simp only [UInt64.size, Nat.pow_eq, if_true, if_false, Bool.false_eq_true]
    <;> omega

theorem magnitude_ofMagnitude {m : Nat} (hm : m < 2 ^ 63) (negative : Bool) :
    (ofMagnitude negative m).magnitude = m := by
  rw [magnitude, toNat_bits_ofMagnitude hm]
  cases negative
  · rw [if_neg Bool.false_ne_true, Nat.zero_add]
    exact Nat.mod_eq_of_lt hm
  · rw [if_pos rfl, Nat.pow_eq, Nat.add_mod_left]
    exact Nat.mod_eq_of_lt hm

theorem isNegative_ofMagnitude {m : Nat} (hm : m < 2 ^ 63) (negative : Bool) :
    (ofMagnitude negative m).isNegative = negative := by
  rw [isNegative, toNat_bits_ofMagnitude hm]
  cases negative
  · simpa using hm
  · simp

def least : ℚ :=
  2 ^ (-1074 : ℤ)

theorem least_pos : 0 < least :=
  zpow_pos two_pos _

def size (x : Number) : ℚ :=
  x.mantissa * 2 ^ x.exponent

def signed (negative : Bool) (a : ℚ) : ℚ :=
  if negative then -a else a

def value (x : Number) : ℚ :=
  signed x.isNegative x.size

def gap (x : Number) : ℚ :=
  2 ^ x.exponent

def gapBelow (x : Number) : ℚ :=
  if x.fraction = 0 ∧ 1 < x.exponentField then x.gap / 2 else x.gap

theorem gap_eq (x : Number) : x.gap = spacing x.magnitude * least := by
  have hexp : x.exponent = ((max x.exponentField 1 - 1 : Nat) : ℤ) + -1074 := by
    have h : x.exponent = Int.ofNat (max x.exponentField 1) - 1075 := rfl
    rw [h, Int.ofNat_eq_natCast]
    omega
  rw [gap, hexp, zpow_add₀ two_ne_zero, zpow_natCast, spacing, Nat.cast_pow]
  rfl

theorem size_eq (x : Number) : x.size = units x.magnitude * least := by
  have hunits : units x.magnitude = x.mantissa * spacing x.magnitude := rfl
  rw [hunits, Nat.cast_mul, mul_assoc, ← gap_eq]
  rfl

theorem size_nonneg (x : Number) : 0 ≤ x.size := by
  rw [size_eq]
  exact mul_nonneg (Nat.cast_nonneg _) least_pos.le

theorem gap_pos (x : Number) : 0 < x.gap :=
  zpow_pos two_pos _

theorem gapBelow_pos (x : Number) : 0 < x.gapBelow := by
  have h := x.gap_pos
  unfold gapBelow
  split <;> linarith

theorem size_lt_size {x y : Number} (h : x.magnitude < y.magnitude) : x.size < y.size := by
  have hunits : (units x.magnitude : ℚ) < units y.magnitude := by
    exact_mod_cast units_strictMono h
  rw [size_eq, size_eq]
  exact mul_lt_mul_of_pos_right hunits least_pos

theorem size_of_magnitude_zero {x : Number} (h : x.magnitude = 0) : x.size = 0 := by
  simp [size_eq, h, units]

theorem size_of_magnitude_succ {x y : Number} (h : y.magnitude = x.magnitude + 1) :
    y.size = x.size + x.gap := by
  rw [size_eq, size_eq, gap_eq, h, units_succ]
  push_cast
  ring

theorem gapBelow_of_magnitude_succ {x y : Number} (h : y.magnitude = x.magnitude + 1) :
    y.gapBelow = x.gap := by
  have hspacing := spacing_succ x.magnitude
  rw [← h] at hspacing
  rw [gapBelow, gap_eq y, gap_eq x, hspacing]
  have hfield : y.magnitude / 2 ^ 52 = y.exponentField := rfl
  have hfraction : y.magnitude % 2 ^ 52 = y.fraction := rfl
  rw [hfield, hfraction]
  split
  · push_cast
    ring
  · rfl

theorem size_add_gap_le {x y : Number} (h : x.magnitude < y.magnitude) :
    x.size + x.gap ≤ y.size := by
  have hsucc : units (x.magnitude + 1) ≤ units y.magnitude := units_strictMono.monotone h
  rw [units_succ] at hsucc
  have hcast : (units x.magnitude + spacing x.magnitude : ℚ) ≤ units y.magnitude := by
    exact_mod_cast hsucc
  rw [size_eq, size_eq, gap_eq, ← add_mul]
  exact mul_le_mul_of_nonneg_right hcast least_pos.le

theorem size_add_gapBelow_le {x y : Number} (h : y.magnitude < x.magnitude) :
    y.size + x.gapBelow ≤ x.size := by
  have hx := x.magnitude_lt
  -- the number just below `x`
  have hz := magnitude_ofMagnitude (m := x.magnitude - 1) (by omega) false
  set z := ofMagnitude false (x.magnitude - 1)
  have hsucc : x.magnitude = z.magnitude + 1 := by omega
  rw [gapBelow_of_magnitude_succ hsucc, size_of_magnitude_succ hsucc]
  rcases Nat.lt_or_ge y.magnitude z.magnitude with hlt | hge
  · linarith [size_lt_size hlt]
  · have heq : y.magnitude = z.magnitude := by omega
    rw [size_eq, size_eq, heq]

/-- Whether a size lies within half the distance to the two neighbours of a number; halfway counts
when the mantissa is even. -/
def Catches (x : Number) (a : ℚ) : Prop :=
  if x.mantissa % 2 = 0 then
    x.size - x.gapBelow / 2 ≤ a ∧ a ≤ x.size + x.gap / 2
  else
    x.size - x.gapBelow / 2 < a ∧ a < x.size + x.gap / 2

theorem Catches.bounds {x : Number} {a : ℚ} (h : x.Catches a) :
    x.size - x.gapBelow / 2 ≤ a ∧ a ≤ x.size + x.gap / 2 := by
  unfold Catches at h
  split at h
  · exact h
  · exact ⟨h.1.le, h.2.le⟩

theorem Catches.even_of_eq {x : Number} {a : ℚ} (h : x.Catches a)
    (ha : a = x.size - x.gapBelow / 2 ∨ a = x.size + x.gap / 2) : x.mantissa % 2 = 0 := by
  by_contra hodd
  rw [Catches, if_neg hodd] at h
  rcases ha with rfl | rfl
  · exact lt_irrefl _ h.1
  · exact lt_irrefl _ h.2

theorem catches_size (x : Number) : x.Catches x.size := by
  have h₁ := x.gap_pos
  have h₂ := x.gapBelow_pos
  unfold Catches
  split <;> constructor <;> linarith

theorem Catches.nearest {x : Number} {a : ℚ} (h : x.Catches a) (y : Number) :
    |x.size - a| ≤ |y.size - a| ∧
      (y.size ≠ x.size → |y.size - a| = |x.size - a| → x.mantissa % 2 = 0) := by
  obtain ⟨hlow, hhigh⟩ := h.bounds
  have hgap := x.gap_pos
  have hgapBelow := x.gapBelow_pos
  rcases Nat.lt_trichotomy x.magnitude y.magnitude with hlt | heq | hgt
  · have hy := size_add_gap_le hlt
    have hdist : |y.size - a| = y.size - a := abs_of_nonneg (by linarith)
    rw [hdist]
    constructor
    · exact abs_le.mpr ⟨by linarith, by linarith⟩
    · intro _ htie
      refine h.even_of_eq (.inr ?_)
      rcases abs_choice (x.size - a) with habs | habs <;> rw [habs] at htie <;> linarith
  · have hsize : y.size = x.size := by rw [size_eq, size_eq, heq]
    exact ⟨by rw [hsize], fun hne => absurd hsize hne⟩
  · have hy := size_add_gapBelow_le hgt
    have hdist : |y.size - a| = -(y.size - a) := abs_of_nonpos (by linarith)
    rw [hdist]
    constructor
    · exact abs_le.mpr ⟨by linarith, by linarith⟩
    · intro _ htie
      refine h.even_of_eq (.inl ?_)
      rcases abs_choice (x.size - a) with habs | habs <;> rw [habs] at htie <;> linarith

structure IsNearest (q : ℚ) (x : Number) : Prop where
  isNaN_eq : x.isNaN = false
  le (y : Number) : y.isNaN = false → |x.value - q| ≤ |y.value - q|
  even (y : Number) : y.isNaN = false → y.value ≠ x.value → |y.value - q| = |x.value - q| →
    x.mantissa % 2 = 0

theorem signed_inj {negative : Bool} {a b : ℚ} : signed negative a = signed negative b ↔ a = b := by
  cases negative <;> simp [signed]

theorem signed_zero (negative : Bool) : signed negative 0 = 0 := by
  cases negative <;> simp [signed]

theorem abs_signed (negative : Bool) (a : ℚ) : |signed negative a| = |a| := by
  cases negative <;> simp [signed]

theorem abs_signed_sub (negative : Bool) (a b : ℚ) :
    |signed negative a - signed negative b| = |a - b| := by
  cases negative
  · rfl
  · simp only [signed, if_true]
    rw [← abs_neg, neg_sub, sub_neg_eq_add, neg_add_eq_sub]

theorem abs_signed_sub_of_ne {s t : Bool} (hst : s ≠ t) (a b : ℚ) :
    |signed s a - signed t b| = |a + b| := by
  cases s <;> cases t <;> simp only [signed, ne_eq, not_true_eq_false, reduceCtorEq,
    not_false_eq_true, if_true, if_false, Bool.false_eq_true] at hst ⊢
  · rw [sub_neg_eq_add]
  · rw [← abs_neg]
    congr 1
    ring

def zero : Number :=
  .ofMagnitude false 0

theorem size_zero : zero.size = 0 :=
  size_of_magnitude_zero (by decide)

theorem isNearest_of_sizes {x : Number} (hnan : x.isNaN = false) {a : ℚ} (ha : 0 ≤ a)
    (h : ∀ y : Number, y.isNaN = false → |x.size - a| ≤ |y.size - a| ∧
      (y.size ≠ x.size → |y.size - a| = |x.size - a| → x.mantissa % 2 = 0)) :
    IsNearest (signed x.isNegative a) x := by
  have hx : |x.value - signed x.isNegative a| = |x.size - a| := abs_signed_sub _ _ _
  have hother (y : Number) (hs : y.isNegative ≠ x.isNegative) :
      |y.value - signed x.isNegative a| = y.size + a := by
    rw [value, abs_signed_sub_of_ne hs]
    exact abs_of_nonneg (add_nonneg y.size_nonneg ha)
  have hzero := h zero (by decide)
  rw [size_zero, zero_sub, abs_neg, abs_of_nonneg ha] at hzero
  refine ⟨hnan, fun y hy => ?_, fun y hy hne htie => ?_⟩
  · rw [hx]
    by_cases hs : y.isNegative = x.isNegative
    · rw [value, hs, abs_signed_sub]
      exact (h y hy).1
    · rw [hother y hs]
      linarith [hzero.1, y.size_nonneg]
  · rw [hx] at htie
    by_cases hs : y.isNegative = x.isNegative
    · rw [value, value, hs, ne_eq, signed_inj] at hne
      rw [value, hs, abs_signed_sub] at htie
      exact (h y hy).2 hne htie
    · rw [hother y hs] at htie
      have hy : y.size = 0 := by linarith [hzero.1, y.size_nonneg]
      have hxsize : (0 : ℚ) ≠ x.size := by
        intro h0
        rw [value, value, hy, ← h0, signed_zero, signed_zero] at hne
        exact hne rfl
      exact hzero.2 hxsize (by linarith)

theorem isNearest_of_catches {x : Number} (hnan : x.isNaN = false) {a : ℚ} (ha : 0 ≤ a)
    (h : x.Catches a) : IsNearest (signed x.isNegative a) x :=
  isNearest_of_sizes hnan ha fun y _ => h.nearest y

theorem mantissa_mod_two (x : Number) : x.mantissa % 2 = x.magnitude % 2 := by
  have hm := x.magnitude_eq
  rw [mantissa_eq]
  split <;> omega

theorem exists_magnitude_eq (s : Bool) {m : Nat} (hm : m ≤ 2047 * 2 ^ 52) :
    ∃ y : Number, y.isNaN = false ∧ y.isNegative = s ∧ y.magnitude = m := by
  have hlt : m < 2 ^ 63 := by omega
  refine ⟨ofMagnitude s m, ?_, isNegative_ofMagnitude hlt s, magnitude_ofMagnitude hlt s⟩
  rw [isNaN_eq_false_iff, magnitude_ofMagnitude hlt]
  exact hm

section SameSign

variable {x y : Number} {s : Bool} {a : ℚ}

theorem IsNearest.size_le (h : IsNearest (signed s a) x) (hxs : x.isNegative = s)
    (hy : y.isNaN = false) (hys : y.isNegative = s) : |x.size - a| ≤ |y.size - a| := by
  have hle := h.le y hy
  rwa [value, value, hxs, hys, abs_signed_sub, abs_signed_sub] at hle

theorem IsNearest.even_of_tie (h : IsNearest (signed s a) x) (hxs : x.isNegative = s)
    (hy : y.isNaN = false) (hys : y.isNegative = s) (hne : y.size ≠ x.size)
    (htie : |y.size - a| = |x.size - a|) : x.mantissa % 2 = 0 := by
  refine h.even y hy ?_ ?_
  · rwa [value, value, hxs, hys, ne_eq, signed_inj]
  · rwa [value, value, hxs, hys, abs_signed_sub, abs_signed_sub]

theorem IsNearest.le_midpoint (h : IsNearest (signed s a) x) (hxs : x.isNegative = s)
    (hy : y.isNaN = false) (hys : y.isNegative = s) (hlt : x.size < y.size) :
    a ≤ (x.size + y.size) / 2 ∧ (a = (x.size + y.size) / 2 → x.mantissa % 2 = 0) := by
  constructor
  · have hle := h.size_le hxs hy hys
    by_contra hcon
    rw [abs_of_nonpos (by linarith : x.size - a ≤ 0)] at hle
    rcases abs_choice (y.size - a) with habs | habs <;> rw [habs] at hle <;> linarith
  · intro ha
    refine h.even_of_tie hxs hy hys hlt.ne' ?_
    rw [abs_of_nonneg (by linarith : 0 ≤ y.size - a), abs_of_nonpos (by linarith)]
    linarith

theorem IsNearest.midpoint_le (h : IsNearest (signed s a) x) (hxs : x.isNegative = s)
    (hy : y.isNaN = false) (hys : y.isNegative = s) (hlt : y.size < x.size) :
    (y.size + x.size) / 2 ≤ a ∧ (a = (y.size + x.size) / 2 → x.mantissa % 2 = 0) := by
  constructor
  · have hle := h.size_le hxs hy hys
    by_contra hcon
    rw [abs_of_nonneg (by linarith : 0 ≤ x.size - a)] at hle
    rcases abs_choice (y.size - a) with habs | habs <;> rw [habs] at hle <;> linarith
  · intro ha
    refine h.even_of_tie hxs hy hys hlt.ne ?_
    rw [abs_of_nonpos (by linarith : y.size - a ≤ 0), abs_of_nonneg (by linarith)]
    linarith

theorem IsNearest.catches (h : IsNearest (signed s a) x) (hxs : x.isNegative = s)
    (hinf : x.isInfinite = false) (ha : 0 ≤ a) : x.Catches a := by
  have hlt := magnitude_lt_of_finite h.isNaN_eq hinf
  have hgapBelow := x.gapBelow_pos
  have hhigh : a ≤ x.size + x.gap / 2 ∧ (a = x.size + x.gap / 2 → x.mantissa % 2 = 0) := by
    obtain ⟨y, hy, hys, hym⟩ := exists_magnitude_eq s (m := x.magnitude + 1) (by omega)
    have hmid : (x.size + y.size) / 2 = x.size + x.gap / 2 := by
      rw [size_of_magnitude_succ hym]
      ring
    rw [← hmid]
    exact h.le_midpoint hxs hy hys (size_lt_size (by omega))
  have hlow : x.size - x.gapBelow / 2 ≤ a ∧
      (a = x.size - x.gapBelow / 2 → x.mantissa % 2 = 0) := by
    rcases Nat.eq_zero_or_pos x.magnitude with h0 | hpos
    · -- nothing is below a zero, and `a` is not negative
      have hx0 := size_of_magnitude_zero h0
      exact ⟨by linarith, fun heq => by linarith⟩
    · obtain ⟨y, hy, hys, hym⟩ := exists_magnitude_eq s (m := x.magnitude - 1) (by omega)
      have hsucc : x.magnitude = y.magnitude + 1 := by omega
      have hmid : (y.size + x.size) / 2 = x.size - x.gapBelow / 2 := by
        rw [gapBelow_of_magnitude_succ hsucc, size_of_magnitude_succ hsucc]
        ring
      rw [← hmid]
      exact h.midpoint_le hxs hy hys (size_lt_size (by omega))
  unfold Catches
  split
  · exact ⟨hlow.1, hhigh.1⟩
  · rename_i hodd
    exact ⟨lt_of_le_of_ne hlow.1 fun heq => hodd (hlow.2 heq.symm),
      lt_of_le_of_ne hhigh.1 fun heq => hodd (hhigh.2 heq)⟩

theorem IsNearest.magnitude_le (hx : IsNearest (signed s a) x) (hxs : x.isNegative = s)
    (hy : IsNearest (signed s a) y) (hys : y.isNegative = s) : y.magnitude ≤ x.magnitude := by
  by_contra hcon
  have hlt := size_lt_size (Nat.lt_of_not_le hcon)
  have hyle := isNaN_eq_false_iff.mp hy.isNaN_eq
  obtain ⟨hle, hxeven⟩ := hx.le_midpoint hxs hy.isNaN_eq hys hlt
  obtain ⟨hge, hyeven⟩ := hy.midpoint_le hys hx.isNaN_eq hxs hlt
  have ha := le_antisymm hle hge
  obtain ⟨z, hz, hzs, hzm⟩ := exists_magnitude_eq s (m := x.magnitude + 1) (by omega)
  have hxz := (hx.le_midpoint hxs hz hzs (size_lt_size (by omega))).1
  have hzy : ¬z.magnitude < y.magnitude := fun hzy => by linarith [size_lt_size hzy]
  have hxpar := x.mantissa_mod_two
  have hypar := y.mantissa_mod_two
  have hxe := hxeven ha
  have hye := hyeven ha
  omega

theorem IsNearest.unique (hx : IsNearest (signed s a) x) (hxs : x.isNegative = s)
    (hy : IsNearest (signed s a) y) (hys : y.isNegative = s) : x = y :=
  eq_of_magnitude_eq
    (Nat.le_antisymm (hy.magnitude_le hys hx hxs) (hx.magnitude_le hxs hy hys))
    (hxs.trans hys.symm)

end SameSign

end LuauSyntax.Number
