import LuauSyntax.Proofs.Doc.Tree
import LuauSyntax.Proofs.Layout.Lines

namespace LuauSyntax

namespace Piece

def depth? : Piece → Nat → Option Nat
  | .edit .push, k => some (k + 1)
  | .edit .pop, k + 1 => some k
  | .edit .pop, 0 | .measured _, _ => none
  | _, k => some k

def textAt (unit : String) (depth : Nat) : Piece → String
  | .edit (.append t) => t
  | .edit (.indented t) => Line.margin unit depth ++ t
  | .edit (.line t) => Line.margin unit depth ++ t ++ "\n"
  | _ => ""

theorem draw_of_depth? {p : Piece} {k l base : Nat} (h : p.depth? k = some l) (c : Canvas)
    (hc : c.depth = base + k) :
    p.draw c = { c.append (p.textAt c.unit (base + k)) with depth := base + l } := by
  match p, k with
  | .edit .push, k =>
      obtain rfl : k + 1 = l := by simpa [depth?] using h
      simp [draw, Canvas.edit, textAt, Canvas.append, hc, Nat.add_assoc]
  | .edit .pop, k + 1 =>
      obtain rfl : k = l := by simpa [depth?] using h
      simp [draw, Canvas.edit, textAt, Canvas.append, hc, ← Nat.add_assoc]
  | .edit (.append t), k | .custom _, k | .fail _, k =>
      obtain rfl : k = l := by simpa [depth?] using h
      simp [draw, Canvas.edit, textAt, Canvas.append, ← hc]
  | .edit (.indented t), k | .edit (.line t), k =>
      obtain rfl : k = l := by simpa [depth?] using h
      simp [draw, Canvas.edit, textAt, Canvas.append, Canvas.margin, Line.margin, ← hc,
        String.append_assoc]

end Piece

namespace Doc

def depth? (d : Doc) (k : Nat) : Option Nat :=
  d.foldlM (fun k p => p.depth? k) k

def Balanced (d : Doc) : Prop :=
  ∀ k, d.depth? k = some k

def textFrom (unit : String) (base : Nat) : Doc → Nat → String
  | [], _ => ""
  | p :: d, k => p.textAt unit (base + k) ++ textFrom unit base d ((p.depth? k).getD k)

theorem draw_of_depth? {d : Doc} {k l base : Nat} (h : d.depth? k = some l) (c : Canvas)
    (hc : c.depth = base + k) :
    d.draw c = { c.append (d.textFrom c.unit base k) with depth := base + l } := by
  induction d generalizing k c with
  | nil =>
      obtain rfl : k = l := by simpa [depth?] using h
      simp [draw, textFrom, Canvas.append, ← hc]
  | cons p d ih =>
      obtain ⟨j, hp, hd⟩ : ∃ j, p.depth? k = some j ∧ depth? d j = some l := by
        simpa [depth?, Option.bind_eq_some_iff] using h
      change draw d (p.draw c) = _
      rw [Piece.draw_of_depth? hp c hc, ih hd _ rfl]
      simp [textFrom, hp, Canvas.append, String.append_assoc]

theorem Balanced.draw_eq {d : Doc} (h : d.Balanced) (c : Canvas) :
    d.draw c = c.append (d.textFrom c.unit c.depth 0) :=
  draw_of_depth? (h 0) c rfl

@[simp]
theorem depth?_nil (k : Nat) : depth? [] k = some k := rfl

@[simp]
theorem depth?_append (d e : Doc) (k : Nat) : (d ++ e).depth? k = (d.depth? k).bind e.depth? :=
  List.foldlM_append

@[simp]
theorem depth?_text (t : String) : (text t).depth? = some := rfl

@[simp]
theorem depth?_margin : margin.depth? = some := rfl

@[simp]
theorem depth?_indented (t : String) : (indented t).depth? = some := rfl

@[simp]
theorem depth?_line (t : String) : (line t).depth? = some := rfl

@[simp]
theorem depth?_newline : newline.depth? = some := rfl

@[simp]
theorem depth?_nested (d : Doc) (k : Nat) :
    (nested d).depth? k = (d.depth? (k + 1)).bind (depth? [.edit .pop]) :=
  depth?_append d [.edit .pop] (k + 1)

@[simp]
theorem depth?_pop (k : Nat) : depth? [.edit .pop] (k + 1) = some k := rfl

def AllBalanced (ds : List Doc) : Prop :=
  ∀ d ∈ ds, d.Balanced

@[simp]
theorem allBalanced_cons (d : Doc) (ds : List Doc) :
    AllBalanced (d :: ds) ↔ (∀ k, d.depth? k = some k) ∧ AllBalanced ds :=
  List.forall_mem_cons

theorem allBalanced_map {α : Type} {f g : α → Doc} (hfg : ∀ a, (f a).Balanced → (g a).Balanced)
    {l : List α} (h : AllBalanced (l.map f)) : AllBalanced (l.map g) := by
  simp only [AllBalanced, List.forall_mem_map] at h ⊢
  exact fun a ha => hfg a (h a ha)

@[simp]
theorem depth?_flatten {ds : List Doc} (h : AllBalanced ds) (k : Nat) :
    depth? ds.flatten k = some k := by
  induction ds with
  | nil => rfl
  | cons d ds ih =>
      obtain ⟨hd, hds⟩ := (allBalanced_cons d ds).mp h
      simp [hd, ih hds]

@[simp]
theorem depth?_separated (s : String) {ds : List Doc} (h : AllBalanced ds) (k : Nat) :
    (separated s ds).depth? k = some k := by
  induction ds with
  | nil => rfl
  | cons d ds ih =>
      obtain ⟨hd, hds⟩ := (allBalanced_cons d ds).mp h
      cases ds with
      | nil => simpa [separated, List.intercalate] using hd k
      | cons e ds => simp [separated_cons_cons, hd, ih hds]

theorem depth?_lines {ds : List Doc} (h : AllBalanced ds) (e : Doc) (he : e.Balanced) (k : Nat) :
    depth? (ds.flatMap fun d => margin ++ (d ++ e)) k = some k := by
  have hlines : AllBalanced (ds.map fun d => margin ++ (d ++ e)) :=
    allBalanced_map (f := id) (fun d (hd : d.Balanced) k => by simp [hd k, he k]) (by simpa using h)
  rw [List.flatMap_def]
  exact depth?_flatten hlines k

@[simp]
theorem depth?_comment (t : String) (k : Nat) : (comment t).depth? k = some k := by
  rw [comment, List.flatMap_def]
  refine depth?_flatten ?_ k
  simp [AllBalanced, Balanced]

end Doc

end LuauSyntax
