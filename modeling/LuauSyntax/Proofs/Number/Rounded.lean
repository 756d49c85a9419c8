import LuauSyntax.Proofs.Number.Nearest

namespace LuauSyntax.Number

theorem roundEven_eq (n d : Nat) :
    roundEven n d =
      if 2 * (n % d) < d ∨ (2 * (n % d) = d ∧ n / d % 2 = 0) then n / d else n / d + 1 := rfl

theorem roundEven_eq_or (n d : Nat) : roundEven n d = n / d ∨ roundEven n d = n / d + 1 := by
  rw [roundEven_eq]
  split
  · exact .inl rfl
  · exact .inr rfl

theorem roundEven_mul (n : Nat) {d : Nat} (hd : 0 < d) :
    2 * (roundEven n d * d) ≤ 2 * n + d ∧ 2 * n ≤ 2 * (roundEven n d * d) + d ∧
      (2 * (roundEven n d * d) = 2 * n + d ∨ 2 * n = 2 * (roundEven n d * d) + d →
        roundEven n d % 2 = 0) := by
  have hmod := Nat.mod_lt n hd
  have hdiv := Nat.div_add_mod' n d
  have hsucc : (n / d + 1) * d = n / d * d + d := Nat.succ_mul _ _
  rw [roundEven_eq]
  split
  · omega
  · rw [hsucc]
    omega

theorem abs_roundEven_sub (n : Nat) {d : Nat} (hd : 0 < d) :
    |(roundEven n d : ℚ) - n / d| ≤ 1 / 2 ∧
      (|(roundEven n d : ℚ) - n / d| = 1 / 2 → roundEven n d % 2 = 0) := by
  obtain ⟨hhigh, hlow, heven⟩ := roundEven_mul n hd
  have hdq : (0 : ℚ) < d := by exact_mod_cast hd
  have hdist : |(roundEven n d : ℚ) - n / d| = |(roundEven n d * d - n : ℚ)| / d := by
    rw [← abs_of_pos hdq, ← abs_div, abs_of_pos hdq, sub_div, mul_div_cancel_right₀ _ hdq.ne']
  have hhighq : (2 * (roundEven n d * d) : ℚ) ≤ 2 * n + d := by exact_mod_cast hhigh
  have hlowq : (2 * n : ℚ) ≤ 2 * (roundEven n d * d) + d := by exact_mod_cast hlow
  rw [hdist]
  constructor
  · rw [div_le_iff₀ hdq, abs_le]
    constructor <;> linarith
  · intro h
    rw [div_eq_iff hdq.ne'] at h
    refine heven ?_
    rcases abs_choice (roundEven n d * d - n : ℚ) with habs | habs
    · left
      rw [habs] at h
      have hq : (2 * (roundEven n d * d) : ℚ) = 2 * n + d := by linarith
      exact_mod_cast hq
    · right
      rw [habs] at h
      have hq : (2 * n : ℚ) = 2 * (roundEven n d * d) + d := by linarith
      exact_mod_cast hq

theorem inUnits_snd_pos (n : Nat) {d : Nat} (hd : 0 < d) (e : Int) : 0 < (inUnits n d e).2 := by
  cases e with
  | ofNat e => exact Nat.mul_pos hd (Nat.two_pow_pos e)
  | negSucc e => exact hd

theorem inUnits_eq (n d : Nat) (e : Int) :
    ((inUnits n d e).1 : ℚ) / (inUnits n d e).2 = n / d / 2 ^ e := by
  cases e with
  | ofNat e =>
      simp only [inUnits, Nat.pow_eq, Int.ofNat_eq_natCast, zpow_natCast]
      push_cast
      rw [div_div]
  | negSucc e =>
      simp only [inUnits, Nat.pow_eq, zpow_negSucc]
      push_cast
      rw [div_inv_eq_mul, div_mul_eq_mul_div]

theorem le_div_iff_cast {a b k : Nat} (hb : 0 < b) : k ≤ a / b ↔ (k : ℚ) ≤ a / b := by
  have hbq : (0 : ℚ) < b := by exact_mod_cast hb
  rw [Nat.le_div_iff_mul_le hb, le_div_iff₀ hbq]
  exact_mod_cast Iff.rfl

theorem pow_le_inUnits_iff (n : Nat) {d : Nat} (hd : 0 < d) (e : Int) (k : Nat) :
    2 ^ k ≤ (inUnits n d e).1 / (inUnits n d e).2 ↔ (2 : ℚ) ^ (e + k) ≤ n / d := by
  rw [le_div_iff_cast (inUnits_snd_pos n hd e), inUnits_eq, le_div_iff₀ (zpow_pos two_pos e),
    add_comm, zpow_add₀ two_ne_zero]
  norm_cast

section Unit

variable {n d : Nat} (hn : 0 < n) (hd : 0 < d)

include hn hd

theorem div_log2_bounds :
    (2 : ℚ) ^ ((n.log2 : ℤ) - d.log2 - 1) ≤ n / d ∧
      (n / d : ℚ) < 2 ^ ((n.log2 : ℤ) - d.log2 + 1) := by
  have hdq : (0 : ℚ) < d := by exact_mod_cast hd
  have hnlow : (2 : ℚ) ^ n.log2 ≤ n := by exact_mod_cast Nat.log2_self_le hn.ne'
  have hnhigh : (n : ℚ) < 2 ^ (n.log2 + 1) := by exact_mod_cast Nat.lt_log2_self
  have hdlow : (2 : ℚ) ^ d.log2 ≤ d := by exact_mod_cast Nat.log2_self_le hd.ne'
  have hdhigh : (d : ℚ) ≤ 2 ^ (d.log2 + 1) := by exact_mod_cast Nat.lt_log2_self.le
  constructor
  · calc (2 : ℚ) ^ ((n.log2 : ℤ) - d.log2 - 1) = 2 ^ n.log2 / 2 ^ (d.log2 + 1) := by
          rw [sub_sub, zpow_sub₀ two_ne_zero, zpow_natCast]
          norm_cast
      _ ≤ n / d := div_le_div₀ (Nat.cast_nonneg n) hnlow hdq hdhigh
  · calc (n / d : ℚ) < 2 ^ (n.log2 + 1) / 2 ^ d.log2 :=
          div_lt_div₀ hnhigh hdlow (by positivity) (by positivity)
      _ = 2 ^ ((n.log2 : ℤ) - d.log2 + 1) := by
          rw [sub_add_eq_add_sub, zpow_sub₀ two_ne_zero, zpow_natCast]
          norm_cast

theorem unitExponent_spec :
    -1074 ≤ unitExponent n d ∧ (n / d : ℚ) < 2 ^ (unitExponent n d + 53) ∧
      (unitExponent n d = -1074 ∨ (2 : ℚ) ^ (unitExponent n d + 52) ≤ n / d) := by
  obtain ⟨hlow, hhigh⟩ := div_log2_bounds hn hd
  set e : Int := (n.log2 : ℤ) - d.log2 - 52 with he
  set f : Int := if (inUnits n d e).1 / (inUnits n d e).2 < 2 ^ 52 then e - 1 else e with hf
  have hunit : unitExponent n d = max f (-1074) := rfl
  have hfloor : 2 ^ 52 ≤ (inUnits n d e).1 / (inUnits n d e).2 ↔ (2 : ℚ) ^ (e + 52) ≤ n / d :=
    pow_le_inUnits_iff n hd e 52
  -- the exponent before it is kept from going below the smallest
  have hbounds : (2 : ℚ) ^ (f + 52) ≤ n / d ∧ (n / d : ℚ) < 2 ^ (f + 53) := by
    rw [hf]
    split
    · rename_i hlt
      have h₁ : e - 1 + 52 = (n.log2 : ℤ) - d.log2 - 1 := by omega
      have h₂ : e - 1 + 53 = e + 52 := by omega
      rw [h₁, h₂, ← not_le, ← hfloor, not_le]
      exact ⟨hlow, hlt⟩
    · rename_i hge
      have h₂ : e + 53 = (n.log2 : ℤ) - d.log2 + 1 := by omega
      rw [h₂, ← hfloor]
      exact ⟨not_lt.mp hge, hhigh⟩
  rw [hunit]
  refine ⟨le_max_right _ _, ?_, ?_⟩
  · exact hbounds.2.trans_le (zpow_le_zpow_right₀ one_le_two (by omega))
  · rcases le_total f (-1074) with hle | hge
    · exact .inl (max_eq_right hle)
    · rw [max_eq_left hge]
      exact .inr hbounds.1

end Unit

theorem spacing_pack {j k : Nat} (hk : k < 2 ^ 53) (hj : j = 0 ∨ 2 ^ 52 ≤ k) :
    spacing (j * 2 ^ 52 + k) = 2 ^ j := by
  have hdiv : max ((j * 2 ^ 52 + k) / 2 ^ 52) 1 - 1 = j := by omega
  rw [spacing, hdiv]

theorem units_pack {j k : Nat} (hk : k ≤ 2 ^ 53) (hj : j = 0 ∨ 2 ^ 52 ≤ k) :
    units (j * 2 ^ 52 + k) = k * 2 ^ j := by
  rcases Nat.lt_or_ge k (2 ^ 53) with hlt | hge
  · have hmantissa : (if (j * 2 ^ 52 + k) / 2 ^ 52 = 0 then (j * 2 ^ 52 + k) % 2 ^ 52
        else 2 ^ 52 + (j * 2 ^ 52 + k) % 2 ^ 52) = k := by
      split <;> omega
    have hunits : units (j * 2 ^ 52 + k) = k * spacing (j * 2 ^ 52 + k) := by
      rw [units, hmantissa, spacing]
    rw [hunits, spacing_pack hlt hj]
  · obtain rfl : k = 2 ^ 53 := le_antisymm hk hge
    have hpack : j * 2 ^ 52 + 2 ^ 53 = (j + 2) * 2 ^ 52 := by omega
    have hdiv : (j + 2) * 2 ^ 52 / 2 ^ 52 = j + 2 := by omega
    have hmod : (j + 2) * 2 ^ 52 % 2 ^ 52 = 0 := by omega
    have hexp : max (j + 2) 1 - 1 = j + 1 := by omega
    rw [hpack, units, hdiv, hmod, hexp, if_neg (by omega), pow_succ]
    omega

theorem catches_of_near {x : Number} {a u : ℚ} (hgap : u ≤ x.gap)
    (hbelow : u ≤ x.gapBelow ∨ x.size ≤ a) (hnear : |x.size - a| ≤ u / 2)
    (heven : |x.size - a| = u / 2 → x.mantissa % 2 = 0) : x.Catches a := by
  have hpos := x.gapBelow_pos
  have hgapPos := x.gap_pos
  obtain ⟨hlow, hhigh⟩ := abs_le.mp hnear
  unfold Catches
  split
  · rcases hbelow with hbelow | hbelow <;> constructor <;> linarith
  · rename_i hodd
    have hne := lt_of_le_of_ne hnear fun h => hodd (heven h)
    obtain ⟨hlow, hhigh⟩ := abs_lt.mp hne
    rcases hbelow with hbelow | hbelow <;> constructor <;> linarith

section Pack

variable {x : Number} {j n d : Nat} (hd : 0 < d) (hj : j = 0 ∨ 2 ^ 52 ≤ n / d) (hn : n / d < 2 ^ 53)
  (hx : x.magnitude = j * 2 ^ 52 + roundEven n d)

include hj hn hx

theorem size_of_pack : x.size = roundEven n d * (2 ^ j * least) := by
  have hround := roundEven_eq_or n d
  rw [size_eq, hx, units_pack (by omega) (by omega)]
  push_cast
  ring

theorem le_gap_of_pack : 2 ^ j * least ≤ x.gap := by
  have hround := roundEven_eq_or n d
  have hspacing : 2 ^ j ≤ spacing x.magnitude := by
    rw [hx]
    exact Nat.pow_le_pow_right two_pos (by omega)
  rw [gap_eq]
  exact mul_le_mul_of_nonneg_right (by exact_mod_cast hspacing) least_pos.le

theorem le_gapBelow_of_pack : 2 ^ j * least ≤ x.gapBelow ∨ roundEven n d ≤ n / d := by
  have hround := roundEven_eq_or n d
  have hfield : x.exponentField = x.magnitude / 2 ^ 52 := rfl
  have hfraction : x.fraction = x.magnitude % 2 ^ 52 := rfl
  rw [hx] at hfield hfraction
  rw [gapBelow]
  split
  · rename_i hpower
    rcases Nat.lt_or_ge (roundEven n d) (2 ^ 53) with hlt | hge
    · right
      omega
    · left
      have hspacing : spacing x.magnitude = 2 * 2 ^ j := by
        have hdiv : max ((j * 2 ^ 52 + roundEven n d) / 2 ^ 52) 1 - 1 = j + 1 := by omega
        rw [hx, spacing, hdiv, pow_succ, Nat.mul_comm]
      rw [gap_eq, hspacing]
      push_cast
      linarith
  · exact .inl (le_gap_of_pack hj hn hx)

include hd

theorem catches_of_pack : x.Catches (n / d * (2 ^ j * least)) := by
  have hu : 0 < 2 ^ j * least := mul_pos (pow_pos two_pos j) least_pos
  have hsize := size_of_pack hj hn hx
  have hdist : |x.size - n / d * (2 ^ j * least)| =
      |(roundEven n d : ℚ) - n / d| * (2 ^ j * least) := by
    rw [hsize, ← sub_mul, abs_mul, abs_of_pos hu]
  obtain ⟨hnear, heven⟩ := abs_roundEven_sub n hd
  refine catches_of_near (le_gap_of_pack hj hn hx) ?_ ?_ ?_
  · refine (le_gapBelow_of_pack hj hn hx).imp_right fun hle => ?_
    rw [hsize]
    exact mul_le_mul_of_nonneg_right ((le_div_iff_cast hd).mp hle) hu.le
  · rw [hdist]
    linarith [mul_le_mul_of_nonneg_right hnear hu.le]
  · intro h
    rw [hdist] at h
    have hhalf : |(roundEven n d : ℚ) - n / d| = 1 / 2 := mul_right_cancel₀ hu.ne' (by linarith)
    have hparity := x.mantissa_mod_two
    have hrounded := heven hhalf
    omega

end Pack

theorem size_of_magnitude_mul {x : Number} {i : Nat} (hx : x.magnitude = (i + 1) * 2 ^ 52) :
    x.size = 2 ^ 52 * (2 ^ i * least) := by
  have hpack : (i + 1) * 2 ^ 52 = i * 2 ^ 52 + 2 ^ 52 := Nat.succ_mul _ _
  rw [size_eq, hx, hpack, units_pack (by decide) (.inr le_rfl)]
  push_cast
  ring

theorem isNearest_of_infinite {x : Number} (hx : x.magnitude = 2047 * 2 ^ 52) {a : ℚ}
    (ha : x.size ≤ a) : IsNearest (signed x.isNegative a) x := by
  refine isNearest_of_sizes (isNaN_eq_false_iff.mpr hx.le) (x.size_nonneg.trans ha) fun y hy => ?_
  have hle : y.size ≤ x.size := by
    rcases (isNaN_eq_false_iff.mp hy).lt_or_eq with hlt | heq
    · exact (size_lt_size (by omega)).le
    · rw [size_eq, size_eq, hx, heq]
  rw [abs_of_nonpos (by linarith : x.size - a ≤ 0), abs_of_nonpos (by linarith : y.size - a ≤ 0)]
  exact ⟨by linarith, fun hne htie => absurd (by linarith) hne⟩

theorem nearestMagnitude_of_pos {n d : Nat} (hn : 0 < n) :
    nearestMagnitude n d =
      min ((unitExponent n d + 1074).toNat * 2 ^ 52 +
        roundEven (inUnits n d (unitExponent n d)).1 (inUnits n d (unitExponent n d)).2)
        (2047 * 2 ^ 52) :=
  if_neg hn.ne'

theorem isNearest_of_nearestMagnitude {x : Number} {n d : Nat} (hd : 0 < d)
    (hx : x.magnitude = nearestMagnitude n d) : IsNearest (signed x.isNegative (n / d)) x := by
  rcases Nat.eq_zero_or_pos n with rfl | hn
  · have hzero : x.magnitude = 0 := hx
    have hsize := x.catches_size
    rw [size_of_magnitude_zero hzero] at hsize
    rw [Nat.cast_zero, zero_div]
    exact isNearest_of_catches (isNaN_eq_false_iff.mpr (by omega)) le_rfl hsize
  · obtain ⟨hmin, hhigh, hlow⟩ := unitExponent_spec hn hd
    rw [nearestMagnitude_of_pos hn] at hx
    set e := unitExponent n d with he
    set a := (inUnits n d e).1 with ha
    set b := (inUnits n d e).2 with hb
    have hbpos : 0 < b := inUnits_snd_pos n hd e
    obtain ⟨j, hj⟩ : ∃ j : Nat, e + 1074 = j := Int.eq_ofNat_of_zero_le (by omega)
    have hpow : (2 : ℚ) ^ e = 2 ^ j * least := by
      rw [least, ← zpow_natCast, ← zpow_add₀ two_ne_zero, ← hj]
      congr 1
      omega
    have hunits : (a / b * (2 ^ j * least) : ℚ) = n / d := by
      rw [← hpow, inUnits_eq, div_mul_cancel₀ _ (zpow_ne_zero e two_ne_zero)]
    have hfew : a / b < 2 ^ 53 := by
      rw [← not_le, pow_le_inUnits_iff n hd]
      exact not_le.mpr hhigh
    have hmany : j = 0 ∨ 2 ^ 52 ≤ a / b := by
      rw [pow_le_inUnits_iff n hd]
      exact hlow.imp_left fun h => by omega
    rw [hj, Int.toNat_natCast] at hx
    rcases Nat.lt_or_ge (2047 * 2 ^ 52) (j * 2 ^ 52 + roundEven a b) with hover | hfit
    · -- the exponent is beyond the largest
      have hround := roundEven_eq_or a b
      have hinf : x.magnitude = 2047 * 2 ^ 52 := by omega
      have hlarge : 2046 ≤ j := by omega
      have hab : (2 ^ 52 : ℚ) ≤ a / b := by
        have h : 2 ^ 52 ≤ a / b := by omega
        exact_mod_cast (le_div_iff_cast hbpos).mp h
      refine isNearest_of_infinite hinf ?_
      rw [size_of_magnitude_mul hinf, ← hunits]
      have hle : (2 : ℚ) ^ 2046 * least ≤ 2 ^ j * least :=
        mul_le_mul_of_nonneg_right (pow_le_pow_right₀ one_le_two hlarge) least_pos.le
      exact mul_le_mul hab hle (mul_nonneg (pow_nonneg two_pos.le _) least_pos.le) (by positivity)
    · rw [min_eq_left hfit] at hx
      have hcatches := catches_of_pack hbpos hmany hfew hx
      rw [hunits] at hcatches
      exact isNearest_of_catches (isNaN_eq_false_iff.mpr (hx.trans_le hfit)) (by positivity)
        hcatches

theorem nearestMagnitude_le (n d : Nat) : nearestMagnitude n d ≤ 2047 * 2 ^ 52 := by
  unfold nearestMagnitude
  split
  · exact Nat.zero_le _
  · exact Nat.min_le_right _ _

theorem isNearest_ofDecimal (negative : Bool) (m : Nat) (e : Int) :
    IsNearest (signed negative (m * 10 ^ e)) (ofDecimal negative m e) ∧
      (ofDecimal negative m e).isNegative = negative := by
  obtain ⟨n, d, hd, hnd, hof⟩ : ∃ n d : Nat, 0 < d ∧ (n / d : ℚ) = m * 10 ^ e ∧
      ofDecimal negative m e = ofMagnitude negative (nearestMagnitude n d) := by
    cases e with
    | ofNat e => exact ⟨m * 10 ^ e, 1, one_pos, by simp, rfl⟩
    | negSucc e =>
        refine ⟨m, 10 ^ (e + 1), Nat.pow_pos (by decide), ?_, rfl⟩
        rw [zpow_negSucc, ← div_eq_mul_inv]
        push_cast
        rfl
  have hlt : nearestMagnitude n d < 2 ^ 63 :=
    lt_of_le_of_lt (nearestMagnitude_le n d) (by decide)
  have hnegative := isNegative_ofMagnitude hlt negative
  have hnearest := isNearest_of_nearestMagnitude hd (magnitude_ofMagnitude hlt negative)
  rw [hof, ← hnd]
  rw [hnegative] at hnearest
  exact ⟨hnearest, hnegative⟩

end LuauSyntax.Number
