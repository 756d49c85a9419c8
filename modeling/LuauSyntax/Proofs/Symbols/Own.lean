import LuauSyntax.Proofs.Layout.Texts
import LuauSyntax.Proofs.Symbols.Words

namespace LuauSyntax

/-- Printing has line feeds of its own and all visible characters but the capital letters and the
eight that are in no token, keyword, number or escape. -/
def isOwnChar (c : Char) : Bool :=
  c = '\n' || 32 ≤ c.toNat && c.toNat ≤ 126 && !c.isUpper
    && c ∉ ['!', '\x27', '@', '_', 'j', 'q', 'v', 'z']

def IsOwn (t : String) : Prop :=
  t.toList.all isOwnChar = true

instance (t : String) : Decidable (IsOwn t) :=
  inferInstanceAs (Decidable (_ = true))

theorem isOwnChar_of_isDigit {c : Char} (h : c.isDigit = true) : isOwnChar c = true := by
  obtain ⟨hlow, hhigh⟩ : 48 ≤ c.toNat ∧ c.toNat ≤ 57 := by
    simpa [Char.isDigit, UInt32.le_iff_toNat_le] using h
  have hdigits : ∀ k ≤ 57, 48 ≤ k → isOwnChar (Char.ofNat k) = true := by decide
  simpa using hdigits c.toNat hhigh hlow

theorem Number.isOwn_text (x : Number) : IsOwn x.text := by
  refine List.all_eq_true.mpr fun c hc => ?_
  rcases isDigit_or_mem_of_mem_text hc with h | h
  · exact isOwnChar_of_isDigit h
  · exact List.all_eq_true.mp (by decide : IsOwn ".-math.huge(0 / 0)") c h

@[simp]
theorem BinaryOp.isOwn_token (op : BinaryOp) : IsOwn op.token := by
  cases op <;> decide

@[simp]
theorem UnaryOp.isOwn_token (op : UnaryOp) : IsOwn op.token := by
  cases op <;> decide

@[simp]
theorem AssignOp.isOwn_token (op : AssignOp) : IsOwn op.token := by
  cases op <;> decide

theorem Access.isOwn_token (a : Access) : IsOwn a.token := by
  cases a <;> decide

variable {m : Char}

theorem IsOwn.not_mem {t : String} (h : IsOwn t) (hm : isOwnChar m = false) : m ∉ t.toList := by
  intro hc
  rw [List.all_eq_true.mp h m hc] at hm
  exact Bool.noConfusion hm

namespace Text

@[simp]
theorem marked_of_isOwn (hm : isOwnChar m = false) {t : String} (h : IsOwn t) : marked m t = [] :=
  marked_of_not_mem (h.not_mem hm)

theorem not_mem_quoted (hm : isOwnChar m = false) {s : String} (h : m ∉ s.toList) :
    m ∉ (quoted s).toList := by
  intro hc
  rcases mem_quoted hc with ⟨hc, -⟩ | hc
  · exact h hc
  · exact (by decide : IsOwn "\\\"nrt0").not_mem hm hc

end Text

open Text

namespace Doc

@[simp]
theorem marks_nil : marks m [] = [] := rfl

@[simp]
theorem marks_append (d e : Doc) : (d ++ e).marks m = d.marks m ++ e.marks m :=
  List.flatMap_append

@[simp]
theorem marks_text (t : String) : (text t).marks m = marked m t :=
  List.append_nil _

@[simp]
theorem marks_indented (t : String) : (indented t).marks m = marked m t :=
  List.append_nil _

@[simp]
theorem marks_line (t : String) : (line t).marks m = marked m t :=
  List.append_nil _

@[simp]
theorem marks_margin : margin.marks m = [] := by
  simp [margin, marks, Piece.text, marked]

@[simp]
theorem marks_nested (d : Doc) : (nested d).marks m = d.marks m := by
  simp [nested, marks, Piece.text, marked]

@[simp]
theorem marks_flatMap {α : Type} (f : α → Doc) (l : List α) :
    marks m (l.flatMap f) = l.flatMap fun a => (f a).marks m :=
  List.flatMap_assoc

@[simp]
theorem marks_flatten (ds : List Doc) : marks m ds.flatten = ds.flatMap (marks m) := by
  rw [← List.flatMap_id, marks_flatMap]
  rfl

variable (hm : isOwnChar m = false)
include hm

theorem marks_own {t : String} (h : IsOwn t) : (text t).marks m = [] := by
  rw [marks_text, marked_of_isOwn hm h]

@[simp]
theorem marks_newline : newline.marks m = [] :=
  marks_own hm (by decide)

@[simp]
theorem marks_wrapIf (wrap : Bool) (d : Doc) : (wrapIf wrap d).marks m = d.marks m := by
  cases wrap with
  | false => rfl
  | true =>
      rw [wrapIf, if_pos rfl, marks_append, marks_append, marks_own hm (by decide),
        marks_own hm (by decide), List.nil_append, List.append_nil]

@[simp]
theorem marks_boolean (b : Bool) : (boolean b).marks m = [] := by
  cases b <;> exact marks_own hm (by decide)

@[simp]
theorem marks_access (a : Option Access) : (access a).marks m = [] := by
  cases a with
  | none => rfl
  | some a =>
      rw [access, marks_append, marks_own hm a.isOwn_token, marks_own hm (by decide),
        List.append_nil]

@[simp]
theorem marks_separated {s : String} (h : IsOwn s) (ds : List Doc) :
    (separated s ds).marks m = ds.flatMap (marks m) := by
  match ds with
  | [] => rfl
  | [d] => simp [separated, List.intercalate]
  | d :: e :: ds =>
      rw [separated_cons_cons, marks_append, marks_append, marks_own hm h,
        marks_separated h (e :: ds), List.append_nil, ← List.flatMap_cons]

@[simp]
theorem marks_table (positional padded : Bool) (ds : List Doc) :
    (table positional padded ds).marks m = ds.flatMap (marks m) := by
  have hopen (b : Bool) : marked m (if b then "\x7b " else "\x7b") = [] := by
    cases b <;> exact marked_of_isOwn hm (by decide)
  have hclose (b : Bool) : marked m (if b then " \x7d" else "\x7d") = [] := by
    cases b <;> exact marked_of_isOwn hm (by decide)
  cases ds with
  | nil => exact marks_own hm (by decide)
  | cons d ds =>
      cases positional with
      | true => simp [table, hopen, hclose, marks_separated hm (by decide : IsOwn ", ")]
      | false =>
          simp [table, marked_of_isOwn hm (by decide : IsOwn "\x7b\n"),
            marked_of_isOwn hm (by decide : IsOwn ",\n"),
            marked_of_isOwn hm (by decide : IsOwn "\x7d")]

@[simp]
theorem marks_comment {t : String} (h : m ∉ t.toList) : (comment t).marks m = [] := by
  rw [comment, marks_flatMap, List.flatMap_eq_nil_iff]
  intro l hl
  have hline : m ∉ l.toList := fun hc => h (mem_of_mem_lines hl hc).1
  have hopen : m ∉ "-- ".toList := (by decide : IsOwn "-- ").not_mem hm
  rw [marks_line]
  split
  · exact marked_of_isOwn hm (by decide)
  · apply marked_of_not_mem
    rw [String.toList_append, List.mem_append, not_or]
    exact ⟨hopen, hline⟩

end Doc

end LuauSyntax
