import LuauSyntax.Operator

namespace LuauSyntax

inductive Token where
  | name (name : String)
  | number (value : Nat)
  | op (op : BinaryOp)
  | notKw
  | hash
  | ifKw
  | thenKw
  | elseifKw
  | elseKw
  | ellipsis
  | parenOpen
  | parenClose
  | bracketOpen
  | bracketClose
  | dot
  | colon
  | comma
  | other
deriving DecidableEq, Repr

namespace Token

def isNameStart (c : Char) : Bool :=
  c.isAlpha || c == '_'

def isNameChar (c : Char) : Bool :=
  c.isAlphanum || c == '_'

def isNumeralChar (c : Char) : Bool :=
  isNameChar c || c == '.'

def keywords : List String :=
  ["and", "break", "do", "else", "elseif", "end", "false", "for", "function", "if", "in", "local",
    "nil", "not", "or", "repeat", "return", "then", "true", "until", "while"]

def isName (s : String) : Bool :=
  match s.toList with
  | [] => false
  | c :: cs => isNameStart c && cs.all isNameChar && !keywords.contains s

def ofWord (cs : List Char) : Token :=
  match String.ofList cs with
  | "and" => .op .and
  | "or" => .op .or
  | "not" => .notKw
  | "if" => .ifKw
  | "then" => .thenKw
  | "elseif" => .elseifKw
  | "else" => .elseKw
  | w => if keywords.contains w then .other else .name w

def ofNumeral (cs : List Char) : Token :=
  if cs.all Char.isDigit then .number (Nat.ofDigitChars 10 cs 0) else .other

def ofChar? : Char → Option Token
  | ' ' | '\t' | '\r' | '\n' => none
  | '<' => some (.op .less)
  | '>' => some (.op .greater)
  | '+' => some (.op .plus)
  | '-' => some (.op .minus)
  | '*' => some (.op .star)
  | '/' => some (.op .slash)
  | '%' => some (.op .percent)
  | '^' => some (.op .caret)
  | '#' => some .hash
  | '(' => some .parenOpen
  | ')' => some .parenClose
  | '[' => some .bracketOpen
  | ']' => some .bracketClose
  | '.' => some .dot
  | ':' => some .colon
  | ',' => some .comma
  | _ => some .other

def mark (c : Char) (cs : List Char) : Option Token × List Char :=
  match c, cs with
  | '-', '-' :: cs => (none, cs.dropWhile (· ≠ '\n'))
  | '.', '.' :: '.' :: cs => (some .ellipsis, cs)
  | '.', '.' :: cs => (some (.op .concat), cs)
  | '=', '=' :: cs => (some (.op .equal), cs)
  | '~', '=' :: cs => (some (.op .notEqual), cs)
  | '<', '=' :: cs => (some (.op .lessEqual), cs)
  | '>', '=' :: cs => (some (.op .greaterEqual), cs)
  | '/', '/' :: cs => (some (.op .doubleSlash), cs)
  | c, cs => (ofChar? c, cs)

def next (c : Char) (cs : List Char) : Option Token × List Char :=
  if isNameStart c then
    (some (ofWord (c :: cs.takeWhile isNameChar)), cs.dropWhile isNameChar)
  else if c.isDigit then
    (some (ofNumeral (c :: cs.takeWhile isNumeralChar)), cs.dropWhile isNumeralChar)
  else mark c cs

theorem length_dropWhile_le (q : Char → Bool) (cs : List Char) :
    (cs.dropWhile q).length ≤ cs.length :=
  (List.dropWhile_suffix q).length_le

theorem length_mark_le (c : Char) (cs : List Char) : (mark c cs).2.length ≤ cs.length := by
  unfold mark
  split
  · exact Nat.le_succ_of_le (length_dropWhile_le _ _)
  all_goals
    simp only [List.length_cons]
    omega

theorem length_next_le (c : Char) (cs : List Char) : (next c cs).2.length ≤ cs.length := by
  unfold next
  split
  · exact length_dropWhile_le _ _
  · split
    · exact length_dropWhile_le _ _
    · exact length_mark_le c cs

def scan : List Char → List Token
  | [] => []
  | c :: cs => (next c cs).1.toList ++ scan (next c cs).2
termination_by cs => cs.length
decreasing_by exact Nat.lt_succ_of_le (length_next_le c cs)

theorem scan_cons (c : Char) (cs : List Char) :
    scan (c :: cs) = (next c cs).1.toList ++ scan (next c cs).2 := by
  rw [scan]

theorem scan_blank (cs : List Char) : scan (' ' :: cs) = scan cs := by
  rw [scan_cons]
  rfl

theorem scan_mark {c : Char} {cs : List Char} {t : Token} (h : next c cs = (some t, cs)) :
    scan (c :: cs) = t :: scan cs := by
  rw [scan_cons, h]
  rfl

theorem scan_minus {cs : List Char} (h : ∀ c ∈ cs.head?, c ≠ '-') :
    scan ('-' :: cs) = .op .minus :: scan cs := by
  apply scan_mark
  cases cs with
  | nil => rfl
  | cons c cs =>
      have hc : c ≠ '-' := h c rfl
      simp [next, mark, isNameStart, hc, ofChar?]

theorem scan_dot {cs : List Char} (h : ∀ c ∈ cs.head?, c ≠ '.') :
    scan ('.' :: cs) = .dot :: scan cs := by
  apply scan_mark
  cases cs with
  | nil => rfl
  | cons c cs =>
      have hc : c ≠ '.' := h c rfl
      simp [next, mark, isNameStart, hc, ofChar?]

theorem scan_token {c : Char} {w cs : List Char} {t : Token}
    (h : next c (w ++ ' ' :: cs) = (some t, ' ' :: cs)) :
    scan (c :: w ++ ' ' :: cs) = t :: scan cs := by
  rw [List.cons_append, scan_cons, h]
  simp [scan_blank]

theorem scan_op (op : BinaryOp) (cs : List Char) :
    scan (' ' :: op.token.toList ++ ' ' :: cs) = .op op :: scan cs := by
  have hnext : ∃ c w, op.token.toList = c :: w ∧
      next c (w ++ ' ' :: cs) = (some (.op op), ' ' :: cs) := by
    cases op <;> exact ⟨_, _, rfl, rfl⟩
  obtain ⟨c, w, htoken, hnext⟩ := hnext
  rw [List.cons_append, scan_blank, htoken, scan_token hnext]

theorem takeWhile_append_of_head {q : Char → Bool} {w cs : List Char} (hw : w.all q = true)
    (hcs : ∀ c ∈ cs.head?, q c = false) : (w ++ cs).takeWhile q = w := by
  rw [List.takeWhile_append_of_pos (List.all_eq_true.mp hw)]
  cases cs with
  | nil => simp
  | cons c cs => simp [hcs c rfl]

theorem dropWhile_append_of_head {q : Char → Bool} {w cs : List Char} (hw : w.all q = true)
    (hcs : ∀ c ∈ cs.head?, q c = false) : (w ++ cs).dropWhile q = cs := by
  rw [List.dropWhile_append_of_pos (List.all_eq_true.mp hw)]
  cases cs with
  | nil => rfl
  | cons c cs => simp [hcs c rfl]

theorem ofWord_of_not_mem_keywords {cs : List Char} (h : String.ofList cs ∉ keywords) :
    ofWord cs = .name (String.ofList cs) := by
  unfold ofWord
  split
  iterate 7 exact absurd (by simp_all [keywords]) h
  simp [h]

theorem scan_name {n : String} (hn : isName n = true) {cs : List Char}
    (hcs : ∀ c ∈ cs.head?, isNameChar c = false) : scan (n.toList ++ cs) = .name n :: scan cs := by
  unfold isName at hn
  split at hn
  · exact absurd hn Bool.false_ne_true
  · rename_i c w hchars
    simp only [Bool.and_eq_true, Bool.not_eq_true', List.contains_eq_mem,
      decide_eq_false_iff_not] at hn
    obtain ⟨⟨hstart, hw⟩, hkey⟩ := hn
    have hword : String.ofList (c :: w) = n := by rw [← hchars, String.ofList_toList]
    rw [hchars, List.cons_append, scan_cons, next, if_pos hstart, takeWhile_append_of_head hw hcs,
      dropWhile_append_of_head hw hcs, ofWord_of_not_mem_keywords (by rwa [hword]), hword]
    rfl

theorem exists_head_of_isName {n : String} (hn : isName n = true) :
    ∃ c, n.toList.head? = some c ∧ isNameStart c = true := by
  unfold isName at hn
  split at hn
  · exact absurd hn Bool.false_ne_true
  · rename_i c w hchars
    simp only [Bool.and_eq_true] at hn
    exact ⟨c, by rw [hchars]; rfl, hn.1.1⟩

theorem isNumeralChar_of_isDigit {c : Char} (h : c.isDigit = true) : isNumeralChar c = true := by
  simp [isNumeralChar, isNameChar, Char.isAlphanum, h]

theorem isNameStart_of_isDigit {c : Char} (h : c.isDigit = true) : isNameStart c = false := by
  have hunder : c ≠ '_' := by
    rintro rfl
    exact absurd h (by decide)
  have hle : c.val.toNat ≤ 57 := by
    simp only [Char.isDigit, Bool.and_eq_true, decide_eq_true_eq] at h
    exact h.2
  have hupper : c.isUpper = false := by
    apply decide_eq_false
    rintro ⟨hA, -⟩
    have hA' : 65 ≤ c.val.toNat := hA
    omega
  have hlower : c.isLower = false := by
    have hlt : ¬c.val ≥ 'a'.val := by
      intro ha
      have ha' : 97 ≤ c.val.toNat := ha
      omega
    exact Bool.and_eq_false_iff.mpr (.inl (decide_eq_false hlt))
  have halpha : c.isAlpha = false := Bool.or_eq_false_iff.mpr ⟨hupper, hlower⟩
  simp [isNameStart, halpha, hunder]

theorem scan_number (n : Nat) {cs : List Char} (hcs : ∀ c ∈ cs.head?, isNumeralChar c = false) :
    scan (Nat.toDigits 10 n ++ cs) = .number n :: scan cs := by
  have hdigits : ∀ c ∈ Nat.toDigits 10 n, c.isDigit = true := fun c hc =>
    Nat.isDigit_of_mem_toDigits (by decide) (by decide) hc
  have hvalue : Nat.ofDigitChars 10 (Nat.toDigits 10 n) 0 = n := Nat.ofDigitChars_ten_toDigits
  cases hchars : Nat.toDigits 10 n with
  | nil => exact absurd hchars (by simp)
  | cons c w =>
      rw [hchars] at hdigits hvalue
      have hc : c.isDigit = true := hdigits c (by simp)
      have hw : w.all isNumeralChar = true :=
        List.all_eq_true.mpr fun d hd => isNumeralChar_of_isDigit (hdigits d (by simp [hd]))
      have hall : (c :: w).all Char.isDigit = true := List.all_eq_true.mpr hdigits
      rw [List.cons_append, scan_cons, next, isNameStart_of_isDigit hc, if_neg Bool.false_ne_true,
        if_pos hc, takeWhile_append_of_head hw hcs, dropWhile_append_of_head hw hcs, ofNumeral,
        if_pos hall, hvalue]
      rfl

end Token

end LuauSyntax
