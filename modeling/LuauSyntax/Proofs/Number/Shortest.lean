import LuauSyntax.Proofs.Number.Nearest

namespace LuauSyntax.Number

def Decimal.value (d : Decimal) : ℚ :=
  d.digits * 10 ^ d.scale

def Decimal.width (d : Decimal) : Nat :=
  (Nat.toDigits 10 d.digits).length

theorem zpow_toNat {b : ℚ} (hb : b ≠ 0) (z : ℤ) : b ^ z.toNat = b ^ z * b ^ (-z).toNat := by
  rcases Int.le_total 0 z with hz | hz
  · have hneg : (-z).toNat = 0 := by omega
    rw [hneg, pow_zero, mul_one, ← zpow_natCast, Int.toNat_of_nonneg hz]
  · have hpos : z.toNat = 0 := by omega
    rw [hpos, pow_zero, ← zpow_natCast, Int.toNat_of_nonneg (by omega), ← zpow_add₀ hb,
      add_neg_cancel, zpow_zero]

theorem mantissa_pos {x : Number} (hx : x.isZero = false) : 0 < x.mantissa := by
  have hm := x.magnitude_eq
  have hne : x.magnitude ≠ 0 := by simpa [isZero] using hx
  rw [mantissa_eq]
  split <;> omega

theorem gapBelow_le (x : Number) : x.gapBelow ≤ x.gap := by
  have h := x.gap_pos
  unfold gapBelow
  split <;> linarith

theorem gap_le_size {x : Number} (hx : x.isZero = false) : x.gap ≤ x.size := by
  have hm : (1 : ℚ) ≤ x.mantissa := by exact_mod_cast mantissa_pos hx
  exact le_mul_of_one_le_left x.gap_pos.le hm

theorem Catches.pos {x : Number} (hx : x.isZero = false) {a : ℚ} (h : x.Catches a) : 0 < a := by
  have h₁ := x.gap_pos
  have h₂ := x.gapBelow_le
  have h₃ := gap_le_size hx
  linarith [h.bounds.1]

theorem Catches.between {x : Number} {a b c : ℚ} (ha : x.Catches a) (hc : x.Catches c)
    (hab : a ≤ b) (hbc : b ≤ c) : x.Catches b := by
  unfold Catches at *
  split at ha
  · rename_i heven
    rw [if_pos heven] at hc ⊢
    exact ⟨ha.1.trans hab, hbc.trans hc.2⟩
  · rename_i hodd
    rw [if_neg hodd] at hc ⊢
    exact ⟨ha.1.trans_le hab, hbc.trans_lt hc.2⟩

namespace Span

variable (s : Span) (p : Int)

def common : ℚ :=
  2 ^ (-s.unit).toNat * 10 ^ (-p).toNat

theorem common_pos : 0 < s.common p :=
  mul_pos (pow_pos two_pos _) (pow_pos (by norm_num) _)

theorem unitFactor_eq : (s.unitFactor p : ℚ) = 2 ^ s.unit * s.common p := by
  rw [unitFactor, common, Nat.pow_eq, Nat.pow_eq]
  push_cast
  rw [zpow_toNat two_ne_zero]
  ring

theorem gridFactor_eq : (s.gridFactor p : ℚ) = 10 ^ p * s.common p := by
  rw [gridFactor, common, Nat.pow_eq, Nat.pow_eq]
  push_cast
  rw [zpow_toNat (by norm_num : (10 : ℚ) ≠ 0) p]
  ring

theorem gridFactor_pos : 0 < s.gridFactor p :=
  Nat.mul_pos (Nat.pow_pos two_pos) (Nat.pow_pos (by decide))

variable {p} (a t : Nat)

theorem unit_le_grid_iff :
    a * s.unitFactor p ≤ t * s.gridFactor p ↔ (a * 2 ^ s.unit : ℚ) ≤ t * 10 ^ p := by
  rw [← @Nat.cast_le ℚ, Nat.cast_mul, Nat.cast_mul, unitFactor_eq, gridFactor_eq,
    ← mul_assoc, ← mul_assoc]
  exact mul_le_mul_iff_left₀ (s.common_pos p)

theorem grid_le_unit_iff :
    t * s.gridFactor p ≤ a * s.unitFactor p ↔ (t * 10 ^ p : ℚ) ≤ a * 2 ^ s.unit := by
  rw [← @Nat.cast_le ℚ, Nat.cast_mul, Nat.cast_mul, unitFactor_eq, gridFactor_eq,
    ← mul_assoc, ← mul_assoc]
  exact mul_le_mul_iff_left₀ (s.common_pos p)

theorem holds_iff :
    s.holds p t = true ↔
      if s.closed then
        (s.low * 2 ^ s.unit : ℚ) ≤ t * 10 ^ p ∧ (t * 10 ^ p : ℚ) ≤ s.high * 2 ^ s.unit
      else (s.low * 2 ^ s.unit : ℚ) < t * 10 ^ p ∧ (t * 10 ^ p : ℚ) < s.high * 2 ^ s.unit := by
  cases hclosed : s.closed
  · simp only [holds, hclosed, Bool.false_eq_true, if_false, Bool.and_eq_true, decide_eq_true_eq]
    rw [← not_le, ← not_le, ← not_le, ← not_le, grid_le_unit_iff, unit_le_grid_iff]
  · simp only [holds, hclosed, if_true, Bool.and_eq_true, decide_eq_true_eq]
    rw [grid_le_unit_iff, unit_le_grid_iff]

theorem holds_of_nearest?_eq_some {t : Nat} (h : s.nearest? p = some t) : s.holds p t = true := by
  simp only [nearest?] at h
  split at h
  · rename_i habove
    obtain rfl := Option.some.inj h
    exact (Bool.and_eq_true_iff.mp habove).1
  · split at h
    · rename_i hbelow
      obtain rfl := Option.some.inj h
      exact (Bool.and_eq_true_iff.mp hbelow).2
    · exact absurd h (by simp)

theorem not_holds_of_nearest?_eq_none (h : s.nearest? p = none) :
    let t := s.value * s.unitFactor p / s.gridFactor p
    s.holds p (t + 1) = false ∧ (t = 0 ∨ s.holds p t = false) := by
  simp only [nearest?] at h
  split at h
  · exact absurd h (by simp)
  · rename_i habove
    split at h
    · exact absurd h (by simp)
    · rename_i hbelow
      simp only [Bool.not_eq_true] at hbelow
      simp only [hbelow, Bool.not_false, Bool.true_or, Bool.and_true, Bool.not_eq_true] at habove
      rw [Bool.and_eq_false_iff, bne_eq_false_iff_eq] at hbelow
      exact ⟨habove, hbelow⟩

end Span

theorem span_holds_iff {x : Number} (hx : x.isZero = false) (p : Int) (t : Nat) :
    x.span.holds p t = true ↔ x.Catches (t * 10 ^ p) := by
  have hm := mantissa_pos hx
  have hunit : (2 : ℚ) ^ x.span.unit = x.gap / 4 := by
    have h : x.span.unit = x.exponent - 2 := rfl
    rw [h, zpow_sub₀ two_ne_zero]
    norm_num [gap]
  have hsize : x.size = x.mantissa * x.gap := rfl
  have hhigh : (x.span.high * 2 ^ x.span.unit : ℚ) = x.size + x.gap / 2 := by
    have h : x.span.high = 4 * x.mantissa + 2 := rfl
    rw [h, hunit, hsize]
    push_cast
    ring
  have hlow : (x.span.low * 2 ^ x.span.unit : ℚ) = x.size - x.gapBelow / 2 := by
    have h : x.span.low =
        4 * x.mantissa - (if x.fraction = 0 ∧ 1 < x.exponentField then 1 else 2) := rfl
    rw [h, hunit, hsize, gapBelow]
    split
    · rw [Nat.cast_sub (by omega)]
      push_cast
      ring
    · rw [Nat.cast_sub (by omega)]
      push_cast
      ring
  have hclosed : x.span.closed = (x.mantissa % 2 == 0) := rfl
  rw [Span.holds_iff, hhigh, hlow, hclosed, Catches]
  simp only [beq_iff_eq]

def floorAt (x : Number) (p : Int) : Nat :=
  x.span.value * x.span.unitFactor p / x.span.gridFactor p

theorem span_value (x : Number) : (x.span.value * 2 ^ x.span.unit : ℚ) = x.size := by
  have hvalue : x.span.value = 4 * x.mantissa := rfl
  have hunit : x.span.unit = x.exponent - 2 := rfl
  rw [hvalue, hunit, zpow_sub₀ two_ne_zero, size]
  push_cast
  ring

theorem floorAt_le (x : Number) (p : Int) : (x.floorAt p * 10 ^ p : ℚ) ≤ x.size := by
  rw [← span_value, ← Span.grid_le_unit_iff]
  exact Nat.div_mul_le_self _ _

theorem lt_floorAt_succ (x : Number) (p : Int) :
    x.size < ((x.floorAt p + 1 : Nat) : ℚ) * 10 ^ p := by
  rw [← span_value, ← not_le, ← Span.grid_le_unit_iff, not_le]
  rw [Nat.mul_comm (x.floorAt p + 1)]
  exact Nat.lt_mul_div_succ _ (x.span.gridFactor_pos p)

theorem floorAt_eq (x : Number) {p : Int} (hp : p ≤ 0) (hunit : p ≤ x.span.unit) :
    (x.floorAt p * 10 ^ p : ℚ) = x.size := by
  have hdvd : x.span.gridFactor p ∣ x.span.unitFactor p := by
    have hzero : p.toNat = 0 := by omega
    have htwo : 2 ^ (-x.span.unit).toNat ∣ 10 ^ (-p).toNat :=
      (pow_dvd_pow 2 (by omega)).trans (pow_dvd_pow_of_dvd (by decide) _)
    simp only [Span.gridFactor, Span.unitFactor, Nat.pow_eq, hzero, pow_zero, mul_one]
    exact htwo.mul_left _
  refine le_antisymm (x.floorAt_le p) ?_
  rw [← span_value, ← Span.unit_le_grid_iff, floorAt, Nat.div_mul_cancel (hdvd.mul_left _)]

section Search

variable {x : Number} (hx : x.isZero = false)

include hx

theorem catches_of_nearest? {p : Int} {t : Nat} (h : x.span.nearest? p = some t) :
    x.Catches (t * 10 ^ p) :=
  (span_holds_iff hx p t).mp (x.span.holds_of_nearest?_eq_some h)

theorem not_catches_of_nearest? {p : Int} (h : x.span.nearest? p = none) (t : Nat) :
    ¬x.Catches (t * 10 ^ p) := by
  intro ht
  have hgrid {u v : Nat} (huv : u ≤ v) : (u * 10 ^ p : ℚ) ≤ v * 10 ^ p :=
    mul_le_mul_of_nonneg_right (by exact_mod_cast huv) (zpow_nonneg (by norm_num) p)
  obtain ⟨habove, hbelow⟩ := x.span.not_holds_of_nearest?_eq_none h
  rcases Nat.lt_or_ge (x.floorAt p) t with hlt | hge
  · have hcaught := x.catches_size.between ht (x.lt_floorAt_succ p).le (hgrid hlt)
    rw [← span_holds_iff hx] at hcaught
    exact Bool.false_ne_true (habove.symm.trans hcaught)
  · have hcaught := ht.between x.catches_size (hgrid hge) (x.floorAt_le p)
    rcases hbelow with hzero | hbelow
    · have hpos := hcaught.pos hx
      have hzero' : x.floorAt p = 0 := hzero
      simp [hzero'] at hpos
    · rw [← span_holds_iff hx] at hcaught
      exact Bool.false_ne_true (hbelow.symm.trans hcaught)

theorem catches_search (n : Nat) {p : Int} (hbase : x.Catches (x.floorAt (p - n) * 10 ^ (p - n))) :
    x.Catches (x.span.search n p).value := by
  induction n generalizing p with
  | zero => simpa [Span.search, Decimal.value, floorAt] using hbase
  | succ n ih =>
      rw [Span.search]
      split
      · rename_i t ht
        exact catches_of_nearest? hx ht
      · refine ih ?_
        have hp : p - 1 - (n : ℤ) = p - ((n + 1 : Nat) : ℤ) := by omega
        rwa [hp]

theorem not_catches_above_search (n : Nat) {p r : Int} (hr : (x.span.search n p).scale < r)
    (hrp : r ≤ p) (t : Nat) : ¬x.Catches (t * 10 ^ r) := by
  induction n generalizing p with
  | zero => exact absurd hrp (not_le.mpr hr)
  | succ n ih =>
      rw [Span.search] at hr
      split at hr
      · exact absurd hrp (not_le.mpr hr)
      · rename_i hnone
        rcases eq_or_lt_of_le hrp with rfl | hlt
        · exact not_catches_of_nearest? hx hnone t
        · exact ih hr (by omega)

end Search

theorem size_lt_pow_wholeDigits (x : Number) : x.size < 10 ^ (x.wholeDigits : ℤ) := by
  set whole := x.mantissa * 2 ^ x.exponent.toNat / 2 ^ (-x.exponent).toNat with hwhole
  have hlen : x.wholeDigits = (Nat.toDigits 10 whole).length := rfl
  have hlt : whole < 10 ^ x.wholeDigits := by
    rw [hlen, ← Nat.length_toDigits_le_iff (by decide) Nat.length_toDigits_pos]
  have hsize : x.size < whole + 1 := by
    have hdiv : x.mantissa * 2 ^ x.exponent.toNat < 2 ^ (-x.exponent).toNat * (whole + 1) :=
      Nat.lt_mul_div_succ _ (Nat.two_pow_pos _)
    have hcast : (x.mantissa * 2 ^ x.exponent.toNat : ℚ) <
        2 ^ (-x.exponent).toNat * (whole + 1) := by exact_mod_cast hdiv
    rw [zpow_toNat two_ne_zero, ← mul_assoc, mul_comm _ (whole + 1 : ℚ)] at hcast
    exact lt_of_mul_lt_mul_right hcast (pow_nonneg two_pos.le _)
  rw [zpow_natCast]
  exact hsize.trans_le (by exact_mod_cast hlt)

theorem neg_le_unit (x : Number) : -1076 ≤ x.span.unit := by
  have hunit : x.span.unit = Int.ofNat (max x.exponentField 1) - 1075 - 2 := rfl
  rw [hunit, Int.ofNat_eq_natCast]
  omega

theorem catches_shortest {x : Number} (hx : x.isZero = false) : x.Catches x.shortest.value := by
  refine catches_search hx _ ?_
  have hp : (x.wholeDigits : ℤ) - ((x.wholeDigits + 1076 : Nat) : ℤ) = -1076 := by omega
  rw [hp, floorAt_eq x (by omega) x.neg_le_unit]
  exact x.catches_size

theorem not_catches_above_shortest {x : Number} (hx : x.isZero = false) {p : Int}
    (hp : x.shortest.scale < p) (t : Nat) : ¬x.Catches (t * 10 ^ p) := by
  rcases le_or_gt p x.wholeDigits with hle | hgt
  · exact not_catches_above_search hx _ hp hle t
  · intro h
    have hpos := h.pos hx
    have ht : (1 : ℚ) ≤ t := by
      rcases Nat.eq_zero_or_pos t with rfl | ht
      · simp at hpos
      · exact_mod_cast ht
    have hpow : (10 : ℚ) ^ ((x.wholeDigits : ℤ) + 1) ≤ 10 ^ p :=
      zpow_le_zpow_right₀ (by norm_num) (by omega)
    rw [zpow_add_one₀ (by norm_num)] at hpow
    have hpoint : (10 : ℚ) ^ p ≤ t * 10 ^ p :=
      le_mul_of_one_le_left (zpow_nonneg (by norm_num) p) ht
    linarith [h.bounds.2, gap_le_size hx, x.size_lt_pow_wholeDigits, x.size_nonneg]

def decimal (x : Number) : Decimal :=
  if x.isZero then ⟨0, 0⟩ else x.shortest

theorem catches_decimal (x : Number) : x.Catches x.decimal.value := by
  unfold decimal
  split
  · rename_i hx
    have hm : x.magnitude = 0 := by simpa [isZero] using hx
    have h := x.catches_size
    rw [size_of_magnitude_zero hm] at h
    simpa [Decimal.value] using h
  · rename_i hx
    exact catches_shortest (by simpa using hx)

theorem Decimal.width_le_iff {d : Decimal} {k : Nat} (hk : 0 < k) :
    d.width ≤ k ↔ d.digits < 10 ^ k :=
  Nat.length_toDigits_le_iff (by decide) hk

theorem width_decimal_le {x : Number} {d : Decimal} (h : x.Catches d.value) :
    x.decimal.width ≤ d.width := by
  by_cases hzero : x.isZero
  · rw [decimal, if_pos hzero]
    exact Nat.length_toDigits_pos
  · have hx : x.isZero = false := by simpa using hzero
    rw [decimal, if_neg hzero]
    by_contra hcon
    -- A power of ten between the two would be caught as well, on a coarser grid.
    have hwidth : 0 < d.width := Nat.length_toDigits_pos
    have hscale : d.scale ≤ x.shortest.scale := by
      by_contra hlt
      exact not_catches_above_shortest hx (not_le.mp hlt) d.digits h
    have hd : d.digits < 10 ^ d.width := (Decimal.width_le_iff hwidth).mp le_rfl
    have hshortest : 10 ^ d.width ≤ x.shortest.digits := by
      rw [← not_lt, ← Decimal.width_le_iff hwidth]
      exact hcon
    set e := x.shortest.scale with he
    have hpow : (10 : ℚ) ^ (e + d.width) = 10 ^ d.width * 10 ^ e := by
      rw [zpow_add₀ (by norm_num), zpow_natCast, mul_comm]
    have hbelow : d.value ≤ ((1 : Nat) : ℚ) * 10 ^ (e + d.width) := by
      rw [Nat.cast_one, one_mul, hpow, Decimal.value]
      gcongr
      · exact_mod_cast hd.le
      · norm_num
    have habove : ((1 : Nat) : ℚ) * 10 ^ (e + d.width) ≤ x.shortest.value := by
      rw [Nat.cast_one, one_mul, hpow, Decimal.value]
      gcongr
      exact_mod_cast hshortest
    exact not_catches_above_shortest hx (by omega) 1
      (h.between (catches_shortest hx) hbelow habove)

theorem natAbs?_eq_some_iff {x : Number} {n : Nat} : x.natAbs? = some n ↔ x.size = n := by
  unfold natAbs? size
  split
  · rename_i e he
    have hsize : (x.mantissa * 2 ^ x.exponent : ℚ) = (x.mantissa * 2 ^ e : Nat) := by
      rw [he, Int.ofNat_eq_natCast, zpow_natCast]
      push_cast
      rfl
    rw [hsize, Nat.cast_inj, Option.some_inj, Nat.pow_eq]
  · rename_i e he
    have hsize : (x.mantissa * 2 ^ x.exponent : ℚ) = n ↔ x.mantissa = n * 2 ^ (e + 1) := by
      rw [he, zpow_negSucc, ← div_eq_mul_inv, div_eq_iff (by positivity)]
      exact_mod_cast Iff.rfl
    rw [hsize, Nat.pow_eq]
    constructor
    · intro h
      split at h
      · rename_i hmod
        obtain rfl := Option.some.inj h
        exact (Nat.div_mul_cancel (Nat.dvd_of_mod_eq_zero hmod)).symm
      · exact absurd h (by simp)
    · intro h
      rw [h, if_pos (Nat.mul_mod_left _ _), Nat.mul_div_cancel _ (Nat.two_pow_pos _)]

theorem eq_of_catches {x : Number} {n u : Nat} (hn : x.natAbs? = some n) (hlt : n < 10 ^ 15)
    (h : x.Catches u) : u = n := by
  obtain ⟨s, -, hfield⟩ := natAbs?_eq_some hn hlt
  have hgap : x.gap ≤ 2 ^ (-1 : ℤ) := by
    have hexp : x.exponent = Int.ofNat (max x.exponentField 1) - 1075 := rfl
    refine zpow_le_zpow_right₀ one_le_two ?_
    rw [hexp, Int.ofNat_eq_natCast]
    omega
  have hbelow := x.gapBelow_le
  obtain ⟨hlow, hhigh⟩ := h.bounds
  rw [natAbs?_eq_some_iff.mp hn] at hlow hhigh
  norm_num at hgap
  have h₁ : (u : ℚ) < n + 1 := by linarith
  have h₂ : (n : ℚ) < u + 1 := by linarith
  norm_cast at h₁ h₂
  omega

theorem shortest_of_natAbs? {x : Number} {n : Nat} (hx : x.isZero = false)
    (hn : x.natAbs? = some n) (hlt : n < 10 ^ 15) :
    ∃ k : Nat, x.shortest.scale = k ∧ n = x.shortest.digits * 10 ^ k := by
  have hones : x.Catches (n * 10 ^ (0 : ℤ)) := by
    rw [zpow_zero, mul_one, ← natAbs?_eq_some_iff.mp hn]
    exact x.catches_size
  obtain ⟨k, hk⟩ : ∃ k : Nat, x.shortest.scale = k := by
    refine Int.eq_ofNat_of_zero_le ?_
    by_contra hneg
    exact not_catches_above_shortest hx (not_le.mp hneg) n hones
  have hvalue : x.shortest.value = ((x.shortest.digits * 10 ^ k : Nat) : ℚ) := by
    rw [Decimal.value, hk, zpow_natCast]
    push_cast
    rfl
  have hcaught := catches_shortest hx
  rw [hvalue] at hcaught
  exact ⟨k, hk, (eq_of_catches hn hlt hcaught).symm⟩

theorem toDigits_mul_pow {n : Nat} (hn : 0 < n) (k : Nat) :
    Nat.toDigits 10 (n * 10 ^ k) = Nat.toDigits 10 n ++ List.replicate k '0' := by
  induction k with
  | zero => simp
  | succ k ih =>
      have hpos : 0 < n * 10 ^ k := Nat.mul_pos hn (Nat.pow_pos (by decide))
      have hten : n * 10 ^ (k + 1) = 10 * (n * 10 ^ k) + 0 := by ring
      rw [hten, ← Nat.toDigits_append_toDigits (by decide) hpos (by decide), ih, List.append_assoc,
        List.replicate_succ', Nat.toDigits_zero]

theorem text_shortest_of_natAbs? {x : Number} {n : Nat} (hx : x.isZero = false)
    (hn : x.natAbs? = some n) (hlt : n < 10 ^ 15) :
    x.shortest.text = String.ofList (Nat.toDigits 10 n) := by
  obtain ⟨k, hscale, hdigits⟩ := shortest_of_natAbs? hx hn hlt
  have hpos : 0 < x.shortest.digits := by
    have h := (catches_shortest hx).pos hx
    rw [Decimal.value] at h
    by_contra h0
    rw [Nat.eq_zero_of_not_pos h0] at h
    simp at h
  rw [Decimal.text, hscale, hdigits, toDigits_mul_pow hpos]

theorem natAbs?_of_isZero {x : Number} (hx : x.isZero = true) : x.natAbs? = some 0 := by
  have hm : x.magnitude = 0 := by simpa [isZero] using hx
  rw [natAbs?_eq_some_iff, size_of_magnitude_zero hm, Nat.cast_zero]

theorem magnitudeText_eq (x : Number) : x.magnitudeText = x.decimal.text := by
  cases hzero : x.isZero
  · rw [decimal, hzero, if_neg Bool.false_ne_true, magnitudeText]
    split
    · rename_i n hn
      split
      · rename_i hlt
        exact (text_shortest_of_natAbs? hzero hn hlt).symm
      · rfl
    · rfl
  · rw [decimal, hzero, if_pos rfl, magnitudeText, natAbs?_of_isZero hzero]
    rfl

end LuauSyntax.Number
