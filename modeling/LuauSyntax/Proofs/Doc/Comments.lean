import LuauSyntax.Proofs.Doc.Tree
import LuauSyntax.Proofs.Layout.Texts

namespace LuauSyntax

namespace Text

def commentLine (t : String) : String :=
  if t = "" then "--" else "-- " ++ t

def comment? (l : String) : Option String :=
  match l.toList with
  | ['-', '-'] => some ""
  | '-' :: '-' :: ' ' :: c :: cs => some (String.ofList (c :: cs))
  | _ => none

theorem comment?_commentLine (t : String) : comment? (commentLine t) = some t := by
  unfold commentLine
  split
  · rename_i h
    rw [h]
    rfl
  · rename_i h
    obtain ⟨c, cs, ht⟩ := List.exists_cons_of_ne_nil fun ht => h (String.toList_eq_nil_iff.mp ht)
    have hline : ("-- " ++ t).toList = '-' :: '-' :: ' ' :: c :: cs := by simp [ht]
    simp only [comment?, hline]
    rw [← ht, String.ofList_toList]

theorem eq_commentLine {l t : String} (h : comment? l = some t) : l = commentLine t := by
  unfold comment? at h
  split at h
  · rename_i hl
    cases h
    exact String.toList_injective hl
  · rename_i c cs hl
    cases h
    exact String.toList_injective (by simpa [commentLine] using hl)
  · cases h

theorem newline_not_mem_commentLine {t : String} (h : '\n' ∉ t.toList) :
    '\n' ∉ (commentLine t).toList := by
  unfold commentLine
  split
  · decide
  · simpa using h

end Text

namespace Piece

def comment? : Piece → Option String
  | .edit (.line l) => Text.comment? l
  | _ => none

/-- Whether a piece ends at the start of a line, given whether it begins at one. There is no answer
if the piece looks at the canvas, or if it is a comment that is not a line of its own. -/
def lineStart? (start : Bool) : Piece → Option Bool
  | .edit (.append t) => some (if t = "" then start else t.toList.getLast? = some '\n')
  | .edit (.indented t) => some (t.toList.getLast? = some '\n')
  | .edit (.line t) =>
      if (Text.comment? t).isSome && !(start && !t.toList.contains '\n') then none else some true
  | .edit .push | .edit .pop | .fail _ => some start
  | .measured _ | .custom _ => none

theorem lineStart?_true {p : Piece} {stop : Bool} (h : p.lineStart? false = some stop) :
    p.lineStart? true = some stop ∨ p.lineStart? true = some true := by
  cases p with
  | edit e =>
      cases e with
      | append t => by_cases ht : t = "" <;> simp_all [lineStart?]
      | line t => cases ht : Text.comment? t <;> simp_all [lineStart?]
      | _ => simp_all [lineStart?]
  | _ => simp_all [lineStart?]

end Piece

namespace Doc

def uncommented (d : Doc) : Doc :=
  d.filter fun p => p.comment?.isNone

def comments (d : Doc) : List String :=
  d.filterMap Piece.comment?

def lineStart? (d : Doc) (start : Bool) : Option Bool :=
  d.foldlM Piece.lineStart? start

def after (d : Doc) (start : Bool) : Bool :=
  (d.lineStart? start).getD start

def Flows (d : Doc) : Prop :=
  ∀ start, d.lineStart? start = some (d.after start)

def Settles (d : Doc) : Prop :=
  d.lineStart? true = some true

@[simp]
theorem uncommented_append (d e : Doc) :
    (d ++ e).uncommented = d.uncommented ++ e.uncommented :=
  List.filter_append ..

@[simp]
theorem uncommented_nil : uncommented [] = [] := rfl

@[simp]
theorem uncommented_text (t : String) : (text t).uncommented = text t := rfl

@[simp]
theorem uncommented_newline : newline.uncommented = newline := rfl

@[simp]
theorem uncommented_margin : margin.uncommented = margin := rfl

@[simp]
theorem uncommented_indented (t : String) : (indented t).uncommented = indented t := rfl

theorem uncommented_line {t : String} (h : Text.comment? t = none) :
    (line t).uncommented = line t := by
  simp [uncommented, line, Piece.comment?, h]

@[simp]
theorem uncommented_fail (v : Violation) : uncommented [.fail v] = [.fail v] := rfl

@[simp]
theorem uncommented_nested (d : Doc) : (nested d).uncommented = nested d.uncommented :=
  (uncommented_append (.edit .push :: d) [.edit .pop]).trans rfl

@[simp]
theorem uncommented_wrapIf (wrap : Bool) (d : Doc) :
    (wrapIf wrap d).uncommented = wrapIf wrap d.uncommented := by
  cases wrap <;> simp [wrapIf]

@[simp]
theorem uncommented_flatten (ds : List Doc) :
    uncommented ds.flatten = (ds.map uncommented).flatten :=
  List.filter_flatten

@[simp]
theorem uncommented_separated (s : String) (ds : List Doc) :
    (separated s ds).uncommented = separated s (ds.map uncommented) := by
  induction ds with
  | nil => rfl
  | cons d ds ih =>
      cases ds with
      | nil => simp [separated, List.intercalate]
      | cons e ds =>
          simp only [separated_cons_cons, uncommented_append, uncommented_text, ih, List.map_cons]

@[simp]
theorem uncommented_boolean (b : Bool) : (boolean b).uncommented = boolean b := rfl

@[simp]
theorem uncommented_access (a : Option Access) : (access a).uncommented = access a := by
  cases a <;> rfl

@[simp]
theorem uncommented_table (positional padded : Bool) (ds : List Doc) :
    (table positional padded ds).uncommented = table positional padded (ds.map uncommented) := by
  unfold table
  cases ds with
  | nil => rfl
  | cons d ds =>
      cases positional with
      | true => simp
      | false => simp [List.flatMap_def, Function.comp_def]

@[simp]
theorem violation?_uncommented (d : Doc) : d.uncommented.violation? = d.violation? := by
  induction d with
  | nil => rfl
  | cons p d ih =>
      cases p with
      | edit e =>
          cases e with
          | line t =>
              cases ht : Text.comment? t <;>
                simp_all [uncommented, Piece.comment?, violation?]
          | _ => exact ih
      | fail v => rfl
      | measured f => exact ih
      | custom kind => exact ih

theorem comment_eq (t : String) :
    comment t = ((Text.lines t).map fun l => line (Text.commentLine l)).flatten :=
  List.flatMap_def ..

@[simp]
theorem uncommented_comment (t : String) : (comment t).uncommented = [] := by
  have h (l : String) : (line (Text.commentLine l)).uncommented = [] := by
    simp [uncommented, line, Piece.comment?, Text.comment?_commentLine]
  simp [comment_eq, Function.comp_def, h]

@[simp]
theorem comments_append (d e : Doc) : (d ++ e).comments = d.comments ++ e.comments :=
  List.filterMap_append

@[simp]
theorem comments_nil : comments [] = [] := rfl

@[simp]
theorem comments_text (t : String) : (text t).comments = [] := rfl

@[simp]
theorem comments_newline : newline.comments = [] := rfl

@[simp]
theorem comments_margin : margin.comments = [] := rfl

@[simp]
theorem comments_indented (t : String) : (indented t).comments = [] := rfl

theorem comments_line (t : String) : (line t).comments = (Text.comment? t).toList := by
  cases h : Text.comment? t <;> simp [comments, line, Piece.comment?, h]

@[simp]
theorem comments_nested (d : Doc) : (nested d).comments = d.comments :=
  (comments_append (.edit .push :: d) [.edit .pop]).trans (List.append_nil _)

@[simp]
theorem comments_wrapIf (wrap : Bool) (d : Doc) : (wrapIf wrap d).comments = d.comments := by
  cases wrap <;> simp [wrapIf]

@[simp]
theorem comments_flatMap {α : Type} (f : α → Doc) (l : List α) :
    comments (l.flatMap f) = l.flatMap fun a => (f a).comments := by
  induction l with
  | nil => rfl
  | cons a l ih => rw [List.flatMap_cons, comments_append, ih, List.flatMap_cons]

@[simp]
theorem comments_flatten (ds : List Doc) : comments ds.flatten = ds.flatMap comments := by
  rw [← List.flatMap_id, comments_flatMap]
  rfl

@[simp]
theorem comments_separated (s : String) (ds : List Doc) :
    (separated s ds).comments = ds.flatMap comments := by
  induction ds with
  | nil => rfl
  | cons d ds ih =>
      cases ds with
      | nil => simp [separated, List.intercalate]
      | cons e ds =>
          rw [separated_cons_cons, comments_append, comments_append, comments_text, ih,
            List.append_nil, ← List.flatMap_cons]

@[simp]
theorem comments_boolean (b : Bool) : (boolean b).comments = [] := rfl

@[simp]
theorem comments_access (a : Option Access) : (access a).comments = [] := by
  cases a <;> rfl

@[simp]
theorem comments_table (positional padded : Bool) (ds : List Doc) :
    (table positional padded ds).comments = ds.flatMap comments := by
  unfold table
  cases ds with
  | nil => rfl
  | cons d ds =>
      cases positional <;> simp

@[simp]
theorem comments_comment (t : String) : (comment t).comments = Text.lines t := by
  simp [comment_eq, List.flatMap_map, comments_line, Text.comment?_commentLine]

theorem lineStart?_cons (p : Piece) (d : Doc) (start : Bool) :
    lineStart? (p :: d) start = (p.lineStart? start).bind (lineStart? d) :=
  List.foldlM_cons

@[simp]
theorem lineStart?_append (d e : Doc) (start : Bool) :
    (d ++ e).lineStart? start = (d.lineStart? start).bind e.lineStart? :=
  List.foldlM_append

@[simp]
theorem lineStart?_nil (start : Bool) : lineStart? [] start = some start := rfl

theorem lineStart?_line {t : String} (h : Text.comment? t = none) (start : Bool) :
    (line t).lineStart? start = some true := by
  simp [lineStart?, line, Piece.lineStart?, h]

@[simp]
theorem lineStart?_nested (d : Doc) (start : Bool) :
    (nested d).lineStart? start = d.lineStart? start :=
  (lineStart?_append d [.edit .pop] start).trans (by cases d.lineStart? start <;> rfl)

theorem isSome_lineStart?_true {d : Doc} (h : (d.lineStart? false).isSome) :
    (d.lineStart? true).isSome := by
  induction d with
  | nil => rfl
  | cons p d ih =>
      cases hp : p.lineStart? false with
      | none => simp [lineStart?_cons, hp] at h
      | some stop =>
          rw [lineStart?_cons, hp] at h
          rcases Piece.lineStart?_true hp with htrue | htrue
          · rwa [lineStart?_cons, htrue]
          · rw [lineStart?_cons, htrue]
            cases stop with
            | false => exact ih h
            | true => exact h

theorem flows_iff {d : Doc} : d.Flows ↔ (d.lineStart? false).isSome := by
  constructor
  · intro h
    simp [h false]
  · intro h start
    have htrue := isSome_lineStart?_true h
    rw [Option.isSome_iff_exists] at h htrue
    obtain ⟨b, hb⟩ := h
    obtain ⟨b', hb'⟩ := htrue
    cases start <;> simp [after, hb, hb']

@[simp (low)]
theorem lineStart?_of_flows {d : Doc} (h : d.Flows) (start : Bool) :
    d.lineStart? start = some (d.after start) :=
  h start

@[simp]
theorem flows_nil : Flows [] := fun _ => rfl

@[simp]
theorem flows_text (t : String) : (text t).Flows := fun _ => rfl

@[simp]
theorem flows_indented (t : String) : (indented t).Flows := fun _ => rfl

@[simp]
theorem flows_fail (v : Violation) : Flows [.fail v] := fun _ => rfl

@[simp]
theorem Flows.append {d e : Doc} (hd : d.Flows) (he : e.Flows) : (d ++ e).Flows := by
  rw [flows_iff]
  simp [hd false, he (d.after false)]

theorem Settles.flatten {ds : List Doc} (h : ∀ d ∈ ds, d.Settles) : Settles ds.flatten := by
  induction ds with
  | nil => rfl
  | cons d ds ih =>
      obtain ⟨hd, hds⟩ := List.forall_mem_cons.mp h
      have hrest := ih hds
      simp only [Settles] at hd hrest ⊢
      simp [hd, hrest]

theorem settles_comment (t : String) : (comment t).Settles := by
  rw [comment_eq]
  refine .flatten ?_
  simp only [List.forall_mem_map]
  intro l hl
  have hnl := Text.newline_not_mem_commentLine (Text.newline_not_mem_of_mem_lines hl)
  simp [Settles, lineStart?, line, Piece.lineStart?, hnl]

end Doc

end LuauSyntax
