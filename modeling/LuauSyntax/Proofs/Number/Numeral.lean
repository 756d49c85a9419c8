import LuauSyntax.Proofs.Number.Shortest

namespace LuauSyntax.Number

structure Numeral where
  negative : Bool
  whole : List Char
  fraction : List Char
  whole_ne_nil : whole ≠ []
  isDigit_whole : whole.all Char.isDigit = true
  isDigit_fraction : fraction.all Char.isDigit = true

namespace Numeral

def sign (negative : Bool) : List Char :=
  if negative then ['-'] else []

def pointed : List Char → List Char
  | [] => []
  | fraction => '.' :: fraction

theorem pointed_of_ne_nil {cs : List Char} (h : cs ≠ []) : pointed cs = '.' :: cs := by
  cases cs with
  | nil => exact absurd rfl h
  | cons c cs => rfl

def text (n : Numeral) : String :=
  String.ofList (sign n.negative ++ (n.whole ++ pointed n.fraction))

def value (n : Numeral) : ℚ :=
  signed n.negative
    (Nat.ofDigitChars 10 n.whole 0 + Nat.ofDigitChars 10 n.fraction 0 / 10 ^ n.fraction.length)

def digits (n : Numeral) : Nat :=
  Nat.ofDigitChars 10 (n.whole ++ n.fraction) 0

theorem value_eq (n : Numeral) :
    n.value = signed n.negative (n.digits * 10 ^ (-n.fraction.length : ℤ)) := by
  have hpow : (10 : ℚ) ^ n.fraction.length ≠ 0 := pow_ne_zero _ (by norm_num)
  have hdigits : n.digits = 10 ^ n.fraction.length * Nat.ofDigitChars 10 n.whole 0 +
      Nat.ofDigitChars 10 n.fraction 0 := by
    rw [digits, Nat.ofDigitChars_append]
    exact Nat.ofDigitChars_eq_ofDigitChars_zero
  rw [value, hdigits, zpow_neg, zpow_natCast, ← div_eq_mul_inv, Nat.cast_add, Nat.cast_mul,
    Nat.cast_pow, Nat.cast_ofNat, add_div, mul_div_cancel_left₀ _ hpow]

def ofParts? (negative : Bool) (whole fraction : List Char) : Option Numeral :=
  if h : whole ≠ [] ∧ whole.all Char.isDigit = true ∧ fraction.all Char.isDigit = true then
    some ⟨negative, whole, fraction, h.1, h.2.1, h.2.2⟩
  else none

def readUnsigned (negative : Bool) (cs : List Char) : Option Numeral :=
  match cs.dropWhile Char.isDigit with
  | [] => ofParts? negative cs []
  | '.' :: c :: fraction => ofParts? negative (cs.takeWhile Char.isDigit) (c :: fraction)
  | _ => none

def read? (s : String) : Option Numeral :=
  match s.toList with
  | '-' :: cs => readUnsigned true cs
  | cs => readUnsigned false cs

theorem ofParts?_self (n : Numeral) : ofParts? n.negative n.whole n.fraction = some n :=
  dif_pos ⟨n.whole_ne_nil, n.isDigit_whole, n.isDigit_fraction⟩

theorem readUnsigned_self (n : Numeral) :
    readUnsigned n.negative (n.whole ++ pointed n.fraction) = some n := by
  have hwhole : ∀ c ∈ n.whole, c.isDigit = true := List.all_eq_true.mp n.isDigit_whole
  have hself := n.ofParts?_self
  unfold readUnsigned
  rw [List.dropWhile_append_of_pos hwhole]
  cases hfraction : n.fraction with
  | nil =>
      rw [hfraction] at hself
      simpa [pointed] using hself
  | cons c cs =>
      rw [hfraction] at hself
      have hdot : Char.isDigit '.' = false := by decide
      rw [List.takeWhile_append_of_pos hwhole]
      simpa [pointed, List.dropWhile_cons, List.takeWhile_cons, hdot] using hself

theorem read?_text (n : Numeral) : read? n.text = some n := by
  have hself := n.readUnsigned_self
  unfold read? text
  rw [String.toList_ofList]
  cases hneg : n.negative with
  | true =>
      rw [hneg] at hself
      exact hself
  | false =>
      rw [hneg] at hself
      split
      · rename_i cs hcs
        -- a digit is not a sign
        obtain ⟨d, ds, hwhole⟩ := List.exists_cons_of_ne_nil n.whole_ne_nil
        have hd : d.isDigit = true := List.all_eq_true.mp n.isDigit_whole d (by simp [hwhole])
        rw [hwhole] at hcs
        obtain rfl : d = '-' := (List.cons.inj hcs).1
        exact absurd hd (by decide)
      · exact hself

end Numeral

theorem isDigit_toDigits (n : Nat) : (Nat.toDigits 10 n).all Char.isDigit = true :=
  List.all_eq_true.mpr fun _ hc => Nat.isDigit_of_mem_toDigits (by decide) (by decide) hc

theorem isDigit_zeros (k : Nat) : (List.replicate k '0').all Char.isDigit = true := by
  simp

namespace Decimal

def padded (d : Decimal) (e : Nat) : List Char :=
  List.replicate (e + 2 - (Nat.toDigits 10 d.digits).length) '0' ++ Nat.toDigits 10 d.digits

theorem lt_length_padded (d : Decimal) (e : Nat) : e + 1 < (d.padded e).length := by
  simp only [padded, List.length_append, List.length_replicate]
  omega

theorem length_drop_padded (d : Decimal) (e : Nat) :
    ((d.padded e).drop ((d.padded e).length - (e + 1))).length = e + 1 := by
  have h := d.lt_length_padded e
  rw [List.length_drop]
  omega

theorem isDigit_padded (d : Decimal) (e : Nat) : (d.padded e).all Char.isDigit = true := by
  rw [padded, List.all_append, isDigit_zeros, isDigit_toDigits]
  rfl

theorem ofDigitChars_padded (d : Decimal) (e : Nat) :
    Nat.ofDigitChars 10 (d.padded e) 0 = d.digits := by
  rw [padded, Nat.ofDigitChars_append, Nat.ofDigitChars_replicate_zero, Nat.mul_zero,
    Nat.ofDigitChars_ten_toDigits]

theorem whole_padded_ne_nil (d : Decimal) (e : Nat) :
    (d.padded e).take ((d.padded e).length - (e + 1)) ≠ [] := by
  have h := d.lt_length_padded e
  rw [← List.length_pos_iff, List.length_take]
  omega

theorem isDigit_whole_padded (d : Decimal) (e : Nat) :
    ((d.padded e).take ((d.padded e).length - (e + 1))).all Char.isDigit = true :=
  List.all_eq_true.mpr fun c hc =>
    List.all_eq_true.mp (d.isDigit_padded e) c (List.mem_of_mem_take hc)

theorem isDigit_fraction_padded (d : Decimal) (e : Nat) :
    ((d.padded e).drop ((d.padded e).length - (e + 1))).all Char.isDigit = true :=
  List.all_eq_true.mpr fun c hc =>
    List.all_eq_true.mp (d.isDigit_padded e) c (List.mem_of_mem_drop hc)

theorem scaled_ne_nil (d : Decimal) (e : Nat) :
    Nat.toDigits 10 d.digits ++ List.replicate e '0' ≠ [] := by
  simp

theorem isDigit_scaled (d : Decimal) (e : Nat) :
    (Nat.toDigits 10 d.digits ++ List.replicate e '0').all Char.isDigit = true := by
  rw [List.all_append, isDigit_toDigits, isDigit_zeros]
  rfl

def numeral (negative : Bool) (d : Decimal) : Numeral :=
  match d.scale with
  | .ofNat e =>
      { negative
        whole := Nat.toDigits 10 d.digits ++ List.replicate e '0'
        fraction := []
        whole_ne_nil := d.scaled_ne_nil e
        isDigit_whole := d.isDigit_scaled e
        isDigit_fraction := List.all_nil }
  | .negSucc e =>
      { negative
        whole := (d.padded e).take ((d.padded e).length - (e + 1))
        fraction := (d.padded e).drop ((d.padded e).length - (e + 1))
        whole_ne_nil := d.whole_padded_ne_nil e
        isDigit_whole := d.isDigit_whole_padded e
        isDigit_fraction := d.isDigit_fraction_padded e }

theorem negative_numeral (negative : Bool) (d : Decimal) :
    (d.numeral negative).negative = negative := by
  unfold numeral
  split <;> rfl

theorem text_numeral (negative : Bool) (d : Decimal) :
    (d.numeral negative).text = (if negative then "-" else "") ++ d.text := by
  have hsign : String.ofList (Numeral.sign negative) = if negative then "-" else "" := by
    cases negative <;> rfl
  rw [← hsign]
  obtain ⟨digits, scale⟩ := d
  cases scale with
  | ofNat e =>
      simp only [numeral, Numeral.text, Numeral.pointed, List.append_nil]
      exact String.ofList_append
  | negSucc e =>
      have hne : ((padded ⟨digits, .negSucc e⟩ e).drop
          ((padded ⟨digits, .negSucc e⟩ e).length - (e + 1))) ≠ [] := by
        rw [← List.length_pos_iff, length_drop_padded]
        exact Nat.succ_pos e
      simp only [numeral, Numeral.text, Numeral.pointed_of_ne_nil hne]
      exact String.ofList_append

theorem value_numeral (negative : Bool) (d : Decimal) :
    (d.numeral negative).value = signed negative d.value := by
  rw [Numeral.value_eq, negative_numeral]
  refine congrArg (signed negative) ?_
  obtain ⟨digits, scale⟩ := d
  cases scale with
  | ofNat e =>
      have hdigits : (numeral negative ⟨digits, .ofNat e⟩).digits = digits * 10 ^ e := by
        rw [Numeral.digits, numeral, List.append_nil, Nat.ofDigitChars_append,
          Nat.ofDigitChars_ten_toDigits, Nat.ofDigitChars_replicate_zero, Nat.mul_comm]
      have hlength : (numeral negative ⟨digits, .ofNat e⟩).fraction.length = 0 := rfl
      rw [hdigits, hlength, value]
      simp
  | negSucc e =>
      have hdigits : (numeral negative ⟨digits, .negSucc e⟩).digits = digits := by
        rw [Numeral.digits, numeral, List.take_append_drop, ofDigitChars_padded]
      have hlength : (numeral negative ⟨digits, .negSucc e⟩).fraction.length = e + 1 :=
        length_drop_padded _ e
      rw [hdigits, hlength, value, Int.negSucc_eq]
      push_cast
      rfl

end Decimal

end LuauSyntax.Number
