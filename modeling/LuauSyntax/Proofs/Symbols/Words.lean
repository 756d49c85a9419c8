import LuauSyntax.Proofs.Doc.Balanced

namespace LuauSyntax

namespace Text

def delimited (m : Char) (w : List Char) : String :=
  String.ofList (m :: w ++ [m])

def wordsFrom (m : Char) : Option (List Char) → List Char → List String
  | _, [] => []
  | none, c :: cs => if c = m then wordsFrom m (some []) cs else wordsFrom m none cs
  | some w, c :: cs =>
      if c = m then delimited m w.reverse :: wordsFrom m none cs
      else wordsFrom m (some (c :: w)) cs

def words (m : Char) (text : String) : List String :=
  wordsFrom m none text.toList

variable {m : Char}

theorem wordsFrom_append_of_not_mem {cs : List Char} (h : m ∉ cs) (rest : List Char) :
    wordsFrom m none (cs ++ rest) = wordsFrom m none rest := by
  induction cs with
  | nil => rfl
  | cons c cs ih =>
      obtain ⟨hc, hcs⟩ : m ≠ c ∧ m ∉ cs := by simpa using h
      rw [List.cons_append, wordsFrom, if_neg (Ne.symm hc), ih hcs]

theorem wordsFrom_some_append {w : List Char} (h : m ∉ w) (v rest : List Char) :
    wordsFrom m (some v) (w ++ m :: rest) =
      delimited m (v.reverse ++ w) :: wordsFrom m none rest := by
  induction w generalizing v with
  | nil => simp [wordsFrom]
  | cons c w ih =>
      obtain ⟨hc, hw⟩ : m ≠ c ∧ m ∉ w := by simpa using h
      rw [List.cons_append, wordsFrom, if_neg (Ne.symm hc), ih hw]
      simp

theorem wordsFrom_delimited_append {w : List Char} (h : m ∉ w) (rest : List Char) :
    wordsFrom m none ((delimited m w).toList ++ rest) =
      delimited m w :: wordsFrom m none rest := by
  have hopen := wordsFrom_some_append h [] rest
  simpa [delimited, wordsFrom] using hopen

theorem wordsFrom_append_right {tail : List Char} (h : m ∉ tail) (v : Option (List Char))
    (cs : List Char) : wordsFrom m v (cs ++ tail) = wordsFrom m v cs := by
  induction cs generalizing v with
  | nil =>
      induction tail generalizing v with
      | nil => rfl
      | cons c tail ih =>
          obtain ⟨hc, htail⟩ : m ≠ c ∧ m ∉ tail := by simpa using h
          cases v <;> simpa [wordsFrom, Ne.symm hc] using ih htail _
  | cons c cs ih => cases v <;> simp only [List.cons_append, wordsFrom, ih]

def marked (m : Char) (t : String) : List String :=
  if m ∈ t.toList then [t] else []

@[simp]
theorem marked_of_not_mem {t : String} (h : m ∉ t.toList) : marked m t = [] :=
  if_neg h

theorem flatMap_marked {ts : List String} (h : ∀ t ∈ ts, m ∈ t.toList) :
    ts.flatMap (marked m) = ts := by
  induction ts with
  | nil => rfl
  | cons t ts ih =>
      obtain ⟨ht, hts⟩ := List.forall_mem_cons.mp h
      rw [List.flatMap_cons, ih hts, marked, if_pos ht]
      rfl

theorem not_mem_of_marked_eq_nil {t : String} (h : marked m t = []) : m ∉ t.toList := by
  intro hm
  simp [marked, hm] at h

theorem wordsFrom_marked_append {t : String}
    (h : ∀ u ∈ marked m t, ∃ w, m ∉ w ∧ u = delimited m w) (rest : List Char) :
    wordsFrom m none (t.toList ++ rest) = marked m t ++ wordsFrom m none rest := by
  by_cases hm : m ∈ t.toList
  · have hmarked : marked m t = [t] := if_pos hm
    obtain ⟨w, hw, rfl⟩ := h t (by simp [hmarked])
    rw [hmarked, wordsFrom_delimited_append hw]
    rfl
  · rw [marked_of_not_mem hm, wordsFrom_append_of_not_mem hm]
    rfl

end Text

open Text

variable {m : Char}

namespace Piece

def text : Piece → String
  | .edit (.append t) | .edit (.indented t) | .edit (.line t) => t
  | _ => ""

theorem not_mem_margin {unit : String} (h : m ∉ unit.toList) (depth : Nat) :
    m ∉ (Line.margin unit depth).toList := by
  induction depth with
  | zero => simp [Line.margin]
  | succ k ih =>
      rw [Line.margin, List.replicate_succ, String.join_cons, String.toList_append,
        List.mem_append, not_or]
      exact ⟨h, ih⟩

theorem exists_textAt_eq {unit : String} (hunit : m ∉ unit.toList) (hline : m ≠ '\n')
    (depth : Nat) (p : Piece) :
    ∃ before after : String, p.textAt unit depth = before ++ p.text ++ after ∧
      m ∉ before.toList ∧ m ∉ after.toList := by
  have hmargin := not_mem_margin hunit depth
  match p with
  | .edit (.append t) => exact ⟨"", "", by simp [textAt, text]⟩
  | .edit (.indented t) => exact ⟨Line.margin unit depth, "", by simp [textAt, text, hmargin]⟩
  | .edit (.line t) =>
      exact ⟨Line.margin unit depth, "\n", by simp [textAt, text, hmargin, hline]⟩
  | .edit .push | .edit .pop | .measured _ | .custom _ | .fail _ =>
      exact ⟨"", "", by simp [textAt, text]⟩

end Piece

namespace Doc

def marks (m : Char) (d : Doc) : List String :=
  d.flatMap fun p => marked m p.text

theorem not_mem_textFrom {unit : String} (hunit : m ∉ unit.toList) (hline : m ≠ '\n') {d : Doc}
    (h : d.marks m = []) (base k : Nat) : m ∉ (d.textFrom unit base k).toList := by
  induction d generalizing k with
  | nil => simp [textFrom]
  | cons p d ih =>
      obtain ⟨hp, hd⟩ : marked m p.text = [] ∧ marks m d = [] := by simpa [marks] using h
      obtain ⟨before, after, htext, hbefore, hafter⟩ :=
        p.exists_textAt_eq hunit hline (base + k)
      simp [textFrom, htext, hbefore, hafter, not_mem_of_marked_eq_nil hp, ih hd]

theorem wordsFrom_textFrom_append {unit : String} (hunit : m ∉ unit.toList) (hline : m ≠ '\n')
    {d : Doc} (h : ∀ t ∈ d.marks m, ∃ w, m ∉ w ∧ t = delimited m w) (base k : Nat)
    (rest : List Char) :
    wordsFrom m none ((d.textFrom unit base k).toList ++ rest) =
      d.marks m ++ wordsFrom m none rest := by
  induction d generalizing k with
  | nil => rfl
  | cons p d ih =>
      obtain ⟨hp, hd⟩ := List.forall_mem_append.mp h
      obtain ⟨before, after, htext, hbefore, hafter⟩ :=
        p.exists_textAt_eq hunit hline (base + k)
      simp only [textFrom, htext, String.toList_append, List.append_assoc]
      rw [wordsFrom_append_of_not_mem hbefore, wordsFrom_marked_append hp,
        wordsFrom_append_of_not_mem hafter, ih hd, ← List.append_assoc]
      rfl

end Doc

end LuauSyntax
