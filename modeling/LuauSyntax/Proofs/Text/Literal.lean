import LuauSyntax.Text.Quoted
import Mathlib.Data.List.Chain

namespace LuauSyntax.Text

def codeDigits (cs : List Char) : List Char :=
  (cs.takeWhile Char.isDigit).take 3

def codeChar (digits : List Char) : Char :=
  Char.ofNat (Nat.ofDigitChars 10 digits 0)

def unescape : List Char → Char × List Char
  | [] => ('\\', [])
  | 'n' :: cs => ('\n', cs)
  | 'r' :: cs => ('\r', cs)
  | 't' :: cs => ('\t', cs)
  | c :: cs =>
      if c.isDigit then
        (codeChar (codeDigits (c :: cs)), (c :: cs).drop (codeDigits (c :: cs)).length)
      else (c, cs)

def nextChar (c : Char) (cs : List Char) : Char × List Char :=
  if c = '\\' then unescape cs else (c, cs)

theorem length_unescape_le (cs : List Char) : (unescape cs).2.length ≤ cs.length := by
  unfold unescape
  split
  case h_5 =>
    split
    · simp only [List.length_drop]
      omega
    · simp
  all_goals simp

theorem length_nextChar_le (c : Char) (cs : List Char) : (nextChar c cs).2.length ≤ cs.length := by
  unfold nextChar
  split
  · exact length_unescape_le cs
  · exact Nat.le_refl _

def readChars : List Char → Option (List Char × List Char)
  | [] => none
  | c :: cs =>
      if c = '"' then some ([], cs)
      else (readChars (nextChar c cs).2).map (Prod.map ((nextChar c cs).1 :: ·) id)
termination_by cs => cs.length
decreasing_by exact Nat.lt_succ_of_le (length_nextChar_le c cs)

def readLiteral (text : String) : Option (String × String) :=
  match text.toList with
  | '"' :: cs => (readChars cs).map (Prod.map String.ofList String.ofList)
  | _ => none

theorem readChars_quote (cs : List Char) : readChars ('"' :: cs) = some ([], cs) := by
  rw [readChars, if_pos rfl]

theorem readChars_cons {c d : Char} {cs rest : List Char} (hc : c ≠ '"')
    (h : nextChar c cs = (d, rest)) :
    readChars (c :: cs) = (readChars rest).map (Prod.map (d :: ·) id) := by
  rw [readChars, if_neg hc, h]

/-- What the escapes of a text are read as: a NUL becomes the character whose code is in the digits
after it, of which there are at most two. -/
def absorbed : List Char → List Char
  | [] => []
  | c :: cs =>
      if c = '\x00' then
        codeChar ((cs.takeWhile Char.isDigit).take 2)
          :: absorbed (cs.drop ((cs.takeWhile Char.isDigit).take 2).length)
      else c :: absorbed cs
termination_by cs => cs.length
decreasing_by
  · simp only [List.length_drop, List.length_cons]
    omega
  · exact Nat.lt_succ_self _

theorem escapeChar_of_isDigit {c : Char} (h : c.isDigit = true) : escapeChar c = [c] := by
  unfold escapeChar
  split <;> first | rfl | exact absurd h (by decide)

theorem exists_escapeChar_eq (c : Char) :
    ∃ d w, escapeChar c = d :: w ∧ d.isDigit = c.isDigit := by
  unfold escapeChar
  split <;> exact ⟨_, _, rfl, rfl⟩

theorem takeWhile_escaped (s rest : List Char) :
    (s.flatMap escapeChar ++ '"' :: rest).takeWhile Char.isDigit = s.takeWhile Char.isDigit := by
  induction s with
  | nil => rfl
  | cons c s ih =>
      by_cases hc : c.isDigit = true
      · simp [List.flatMap_cons, escapeChar_of_isDigit hc, hc, ih]
      · obtain ⟨d, w, hdw, hd⟩ := exists_escapeChar_eq c
        simp [List.flatMap_cons, hdw, hd, hc]

theorem flatMap_escapeChar_of_isDigit {ds : List Char} (h : ∀ d ∈ ds, d.isDigit = true) :
    ds.flatMap escapeChar = ds := by
  induction ds with
  | nil => rfl
  | cons d ds ih =>
      obtain ⟨hd, hds⟩ := List.forall_mem_cons.mp h
      rw [List.flatMap_cons, escapeChar_of_isDigit hd, ih hds]
      rfl

theorem nextChar_escapeChar {c : Char} (hc : c ≠ '\x00') (cs : List Char) :
    ∃ d w, escapeChar c = d :: w ∧ d ≠ '"' ∧ nextChar d (w ++ cs) = (c, cs) := by
  unfold escapeChar
  split
  case h_6 => exact absurd rfl hc
  case h_7 hbackslash hquote _ _ _ _ =>
    exact ⟨c, [], rfl, hquote, by simp [nextChar, show c ≠ '\\' from hbackslash]⟩
  all_goals exact ⟨_, _, rfl, by decide, rfl⟩

theorem nextChar_nul (s rest : List Char) :
    nextChar '\\' ('0' :: (s.flatMap escapeChar ++ '"' :: rest)) =
      (codeChar ((s.takeWhile Char.isDigit).take 2),
        (s.drop ((s.takeWhile Char.isDigit).take 2).length).flatMap escapeChar ++ '"' :: rest) := by
  set digits := (s.takeWhile Char.isDigit).take 2 with hdigits
  have hcode : codeDigits ('0' :: (s.flatMap escapeChar ++ '"' :: rest)) = '0' :: digits := by
    simp [codeDigits, takeWhile_escaped, hdigits]
  have hall : ∀ d ∈ digits, d.isDigit = true := fun d hd =>
    List.all_eq_true.mp List.all_takeWhile d (List.mem_of_mem_take hd)
  -- The digits stand in the escaped text as they are, so dropping them leaves an escaped text.
  have hsplit : s = digits ++ s.drop digits.length :=
    (List.prefix_iff_eq_append.mp ((List.take_prefix _ _).trans (List.takeWhile_prefix _))).symm
  have hescaped : s.flatMap escapeChar =
      digits ++ (s.drop digits.length).flatMap escapeChar := by
    conv_lhs => rw [hsplit, List.flatMap_append, flatMap_escapeChar_of_isDigit hall]
  have hdrop : (s.flatMap escapeChar ++ '"' :: rest).drop digits.length =
      (s.drop digits.length).flatMap escapeChar ++ '"' :: rest := by
    rw [hescaped, List.append_assoc, List.drop_left]
  change (codeChar (codeDigits _), List.drop (codeDigits _).length _) = _
  rw [hcode, List.length_cons, List.drop_succ_cons, hdrop]
  rfl

theorem readChars_escaped (s rest : List Char) :
    readChars (s.flatMap escapeChar ++ '"' :: rest) = some (absorbed s, rest) := by
  fun_induction absorbed s with
  | case1 => exact readChars_quote rest
  | case2 s ih =>
      change readChars ('\\' :: '0' :: (s.flatMap escapeChar ++ '"' :: rest)) = _
      rw [readChars_cons (by decide) (nextChar_nul s rest), ih]
      rfl
  | case3 c s hc ih =>
      obtain ⟨d, w, hdw, hquote, hnext⟩ :=
        nextChar_escapeChar hc (s.flatMap escapeChar ++ '"' :: rest)
      rw [List.flatMap_cons, hdw, List.cons_append, List.cons_append, List.append_assoc,
        readChars_cons hquote hnext, ih]
      rfl

theorem length_absorbed_le (s : List Char) : (absorbed s).length ≤ s.length := by
  fun_induction absorbed s with
  | case1 => exact Nat.le_refl 0
  | case2 s ih =>
      simp only [List.length_cons, List.length_drop] at ih ⊢
      omega
  | case3 c s hc ih => simpa using ih

def NulsApart (s : List Char) : Prop :=
  s.IsChain fun c d => c = '\x00' → d.isDigit = false

instance : DecidablePred NulsApart := fun s =>
  inferInstanceAs (Decidable (s.IsChain _))

theorem absorbed_nul {s : List Char} (h : ∀ d ∈ s.head?, d.isDigit = false) :
    absorbed ('\x00' :: s) = '\x00' :: absorbed s := by
  have hdigits : s.takeWhile Char.isDigit = [] := by
    cases s with
    | nil => rfl
    | cons d s => simp [h d rfl]
  rw [absorbed, if_pos rfl, hdigits]
  rfl

theorem absorbed_nul_digit_ne {d : Char} (hd : d.isDigit = true) (s : List Char) :
    absorbed ('\x00' :: d :: s) ≠ '\x00' :: d :: s := by
  intro heq
  have hshort := length_absorbed_le
    ((d :: s).drop (((d :: s).takeWhile Char.isDigit).take 2).length)
  have hlength := congrArg List.length heq
  rw [absorbed, if_pos rfl, List.takeWhile_cons_of_pos hd] at hlength
  rw [List.takeWhile_cons_of_pos hd] at hshort
  simp only [List.take_succ_cons, List.length_cons, List.length_drop] at hshort hlength
  omega

theorem nulsApart_cons {c : Char} {s : List Char} : NulsApart (c :: s) ↔
    (c = '\x00' → ∀ d ∈ s.head?, d.isDigit = false) ∧ NulsApart s := by
  unfold NulsApart
  rw [List.isChain_cons]
  grind

theorem absorbed_eq_self_iff (s : List Char) : absorbed s = s ↔ NulsApart s := by
  induction s with
  | nil => simp [NulsApart, absorbed]
  | cons c s ih =>
      rw [nulsApart_cons]
      by_cases hc : c = '\x00'
      · subst hc
        by_cases hs : ∀ d ∈ s.head?, d.isDigit = false
        · rw [absorbed_nul hs, List.cons_inj_right, ih]
          exact ⟨fun h => ⟨fun _ => hs, h⟩, And.right⟩
        · -- The digit is lost to the code, and nothing is put in its place.
          cases s with
          | nil => simp at hs
          | cons d s =>
              have hne := absorbed_nul_digit_ne (by simpa using hs) s
              exact ⟨fun h => absurd h hne, fun h => absurd (h.1 rfl) hs⟩
      · rw [absorbed, if_neg hc, List.cons_inj_right, ih]
        simp [hc]

theorem readLiteral_quoted (s : String) :
    readLiteral (quoted s) = some (String.ofList (absorbed s.toList), "") ∧
      (readLiteral (quoted s) = some (s, "") ↔ NulsApart s.toList) := by
  have hread : readLiteral (quoted s) = some (String.ofList (absorbed s.toList), "") := by
    simp [readLiteral, quoted, readChars_escaped]
  refine ⟨hread, ?_⟩
  rw [hread, ← absorbed_eq_self_iff]
  constructor
  · intro h
    have hvalue : String.ofList (absorbed s.toList) = s := (Prod.mk.inj (Option.some.inj h)).1
    rw [← String.toList_ofList (l := absorbed s.toList), hvalue]
  · intro h
    rw [h, String.ofList_toList]

theorem readLiteral_quoted_nul_one :
    quoted "\x001" = "\"\\01\"" ∧ readLiteral (quoted "\x001") = some ("\x01", "") ∧
      readLiteral (quoted "\x001") ≠ some ("\x001", "") := by
  decide +kernel

end LuauSyntax.Text
