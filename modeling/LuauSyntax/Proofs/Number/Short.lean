import LuauSyntax.Number.Rounding
import LuauSyntax.Number.Text
import Mathlib

namespace LuauSyntax.Number

def abs (x : Number) : Number :=
  .ofMagnitude false x.magnitude

def isShort (x : Number) : Bool :=
  !x.isNaN && !x.isInfinite && x.natAbs?.any (· < 10 ^ 15)

theorem text_of_isShort {x : Number} (h : x.isShort = true) :
    ∃ n, x.natAbs? = some n ∧ n < 10 ^ 15 ∧
      x.text = (if x.isNegative then "-" else "") ++ String.ofList (Nat.toDigits 10 n) := by
  simp only [isShort, Bool.and_eq_true, Bool.not_eq_true', Option.any_eq_true,
    decide_eq_true_eq] at h
  obtain ⟨⟨hnan, hinf⟩, n, hn, hlt⟩ := h
  have hmagnitude : x.magnitudeText = String.ofList (Nat.toDigits 10 n) := by
    rw [magnitudeText, hn]
    exact if_pos hlt
  exact ⟨n, hn, hlt, by simp [text, hnan, hinf, hmagnitude]⟩

theorem fraction_lt (x : Number) : x.fraction < 2 ^ 52 :=
  Nat.mod_lt _ (by decide)

theorem mantissa_eq (x : Number) :
    x.mantissa = if x.exponentField = 0 then x.fraction else 2 ^ 52 + x.fraction := rfl

theorem magnitude_eq (x : Number) : x.magnitude = x.exponentField * 2 ^ 52 + x.fraction := by
  have hfield : x.exponentField = x.magnitude / 2 ^ 52 := rfl
  have hfraction : x.fraction = x.magnitude % 2 ^ 52 := rfl
  have h := Nat.div_add_mod x.magnitude (2 ^ 52)
  omega

theorem mantissa_lt (x : Number) : x.mantissa < 2 ^ 53 := by
  have h := x.fraction_lt
  rw [mantissa_eq]
  split <;> omega

theorem natAbs?_eq_some {x : Number} {n : Nat} (hn : x.natAbs? = some n) (hlt : n < 10 ^ 15) :
    ∃ s, x.mantissa = n * 2 ^ (s + 1) ∧ max x.exponentField 1 + (s + 1) = 1075 := by
  have hexp : x.exponent = Int.ofNat (max x.exponentField 1) - 1075 := rfl
  unfold natAbs? at hn
  split at hn
  · rename_i e he
    have hn' : x.mantissa * 2 ^ e = n := by simpa using hn
    have hpow : 0 < 2 ^ e := Nat.two_pow_pos e
    have hle : x.mantissa ≤ n := hn' ▸ Nat.le_mul_of_pos_right _ hpow
    have hfield : x.exponentField ≠ 0 := by
      rw [he] at hexp
      simp only [Int.ofNat_eq_natCast] at hexp
      omega
    have hbig : 2 ^ 52 ≤ x.mantissa := by
      rw [mantissa_eq, if_neg hfield]
      exact Nat.le_add_right _ _
    omega
  · rename_i e he
    split at hn
    · rename_i hmod
      have hn' : x.mantissa / 2 ^ (e + 1) = n := by simpa using hn
      refine ⟨e, ?_, ?_⟩
      · rw [← hn']
        exact (Nat.div_mul_cancel (Nat.dvd_of_mod_eq_zero hmod)).symm
      · rw [he] at hexp
        simp only [Int.ofNat_eq_natCast, Int.negSucc_eq] at hexp
        omega
    · exact absurd hn (by simp)

theorem roundEven_one (n : Nat) : roundEven n 1 = n := by
  simp [roundEven, Nat.mod_one]

theorem unitExponent_of_mantissa {n s : Nat} (hlow : 2 ^ 52 ≤ n * 2 ^ (s + 1))
    (hhigh : n * 2 ^ (s + 1) < 2 ^ 53) : unitExponent n 1 = Int.negSucc s := by
  have hpos : n ≠ 0 := by
    rintro rfl
    simp at hlow
  have hs : s + 1 < 53 := by
    have hle : 2 ^ (s + 1) ≤ n * 2 ^ (s + 1) := Nat.le_mul_of_pos_left _ (Nat.pos_of_ne_zero hpos)
    exact (Nat.pow_lt_pow_iff_right (by decide)).mp (Nat.lt_of_le_of_lt hle hhigh)
  have hlog : n.log2 = 52 - (s + 1) := by
    rw [Nat.log2_eq_iff hpos]
    constructor
    · have h52 : 2 ^ 52 = 2 ^ (52 - (s + 1)) * 2 ^ (s + 1) := by
        rw [← Nat.pow_add, Nat.sub_add_cancel (by omega)]
      rw [h52] at hlow
      exact Nat.le_of_mul_le_mul_right hlow (Nat.two_pow_pos _)
    · have h53 : 2 ^ 53 = 2 ^ (52 - (s + 1) + 1) * 2 ^ (s + 1) := by
        rw [← Nat.pow_add]
        congr 1
        omega
      rw [h53] at hhigh
      exact Nat.lt_of_mul_lt_mul_right hhigh
  have he : Int.ofNat n.log2 - Int.ofNat (Nat.log2 1) - 52 = Int.negSucc s := by
    have hone : Nat.log2 1 = 0 := by decide
    rw [hlog, hone, Int.negSucc_eq]
    simp only [Int.ofNat_eq_natCast]
    omega
  have hunits : inUnits n 1 (Int.negSucc s) = (n * 2 ^ (s + 1), 1) := rfl
  have hfull : ¬n * 2 ^ (s + 1) < Nat.pow 2 52 := Nat.not_lt.mpr hlow
  simp only [unitExponent, he, hunits, Nat.div_one, if_neg hfull]
  simp only [Int.negSucc_eq]
  omega

theorem min_pack {e t : Nat} (hne : e ≠ 0) (hlt : e < 2047) (ht : t < 2 ^ 52) :
    min ((e - 1) * 2 ^ 52 + (2 ^ 52 + t)) (2047 * 2 ^ 52) = e * 2 ^ 52 + t := by
  omega

theorem nearestMagnitude_natAbs {x : Number} {n : Nat} (hn : x.natAbs? = some n)
    (hlt : n < 10 ^ 15) : nearestMagnitude n 1 = x.magnitude := by
  obtain ⟨s, hmantissa, hfield⟩ := natAbs?_eq_some hn hlt
  have hfraction := x.fraction_lt
  have hhigh := x.mantissa_lt
  rw [magnitude_eq]
  by_cases hzero : x.exponentField = 0
  · rw [mantissa_eq, if_pos hzero] at hmantissa
    have hn0 : n = 0 := by
      apply Nat.eq_zero_of_not_pos
      intro hpos
      have hpow : 2 ^ (s + 1) ≤ n * 2 ^ (s + 1) := Nat.le_mul_of_pos_left _ hpos
      have hbig : 2 ^ 52 ≤ 2 ^ (s + 1) := Nat.pow_le_pow_right (by decide) (by omega)
      omega
    rw [hn0, Nat.zero_mul] at hmantissa
    simp [hn0, hzero, hmantissa, nearestMagnitude]
  · rw [mantissa_eq, if_neg hzero] at hmantissa hhigh
    have hunit := unitExponent_of_mantissa (n := n) (s := s) (by omega) (by omega)
    have hpos : n ≠ 0 := by
      rintro rfl
      omega
    have hs : (Int.negSucc s + 1074).toNat = x.exponentField - 1 := by
      rw [Int.negSucc_eq]
      omega
    have hunits : inUnits n 1 (Int.negSucc s) = (n * 2 ^ (s + 1), 1) := rfl
    simp only [nearestMagnitude, if_neg hpos, hunit, hunits, roundEven_one, hs, ← hmantissa]
    exact min_pack hzero (by omega) hfraction

theorem ofNat_natAbs {x : Number} {n : Nat} (hn : x.natAbs? = some n) (hlt : n < 10 ^ 15) :
    Number.ofNat n = x.abs := by
  have h : Number.ofNat n = .ofMagnitude false (nearestMagnitude (n * Nat.pow 10 0) 1) := rfl
  have hone : n * Nat.pow 10 0 = n := Nat.mul_one n
  rw [h, hone, nearestMagnitude_natAbs hn hlt]
  rfl

theorem abs_of_not_isNegative {x : Number} (h : x.isNegative = false) : x.abs = x := by
  have hlt : x.bits.toNat < 2 ^ 63 := by simpa [isNegative] using h
  have hmagnitude : x.magnitude = x.bits.toNat := Nat.mod_eq_of_lt hlt
  simp [abs, ofMagnitude, hmagnitude]

end LuauSyntax.Number
