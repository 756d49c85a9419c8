import LuauSyntax.Proofs.Doc.Tree

namespace LuauSyntax

theorem findSome?_cons_or {α β : Type} (f : α → Option β) (a : α) (l : List α) :
    (a :: l).findSome? f = (f a).or (l.findSome? f) := by
  rw [List.findSome?_cons]
  cases f a <;> rfl

theorem findSome?_flatMap {α β γ : Type} (f : β → Option γ) (g : α → List β) (l : List α) :
    (l.flatMap g).findSome? f = l.findSome? fun a => (g a).findSome? f := by
  induction l with
  | nil => rfl
  | cons a l ih => rw [List.flatMap_cons, List.findSome?_append, ih, findSome?_cons_or]

theorem findSome?_congr {α β : Type} {f g : α → Option β} {l : List α}
    (h : ∀ a ∈ l, f a = g a) : l.findSome? f = l.findSome? g := by
  induction l with
  | nil => rfl
  | cons a l ih =>
      rw [findSome?_cons_or, findSome?_cons_or, h a (by simp)]
      rw [ih fun b hb => h b (by simp [hb])]

namespace Doc

@[simp]
theorem violation?_text (t : String) : (text t).violation? = none := rfl

@[simp]
theorem violation?_margin : margin.violation? = none := rfl

@[simp]
theorem violation?_indented (t : String) : (indented t).violation? = none := rfl

@[simp]
theorem violation?_line (t : String) : (line t).violation? = none := rfl

@[simp]
theorem violation?_newline : newline.violation? = none := rfl

attribute [simp] violation?_append

@[simp]
theorem violation?_nil : violation? [] = none := rfl

@[simp]
theorem violation?_nested (d : Doc) : (nested d).violation? = d.violation? := by
  change violation? (d ++ [.edit .pop]) = _
  simp [violation?]

@[simp]
theorem violation?_wrapIf (wrap : Bool) (d : Doc) : (wrapIf wrap d).violation? = d.violation? := by
  cases wrap <;> simp [wrapIf]

@[simp]
theorem violation?_flatten (ds : List Doc) :
    violation? ds.flatten = ds.findSome? violation? := by
  induction ds with
  | nil => rfl
  | cons d ds ih => rw [List.flatten_cons, violation?_append, ih, findSome?_cons_or]

@[simp]
theorem violation?_separated (s : String) (ds : List Doc) :
    (separated s ds).violation? = ds.findSome? violation? := by
  match ds with
  | [] => rfl
  | [d] => simp [separated, List.intercalate]
  | d :: e :: ds =>
      rw [separated_cons_cons, violation?_append, violation?_append, violation?_text,
        violation?_separated s (e :: ds), findSome?_cons_or _ d]
      simp

@[simp]
theorem violation?_boolean (b : Bool) : (boolean b).violation? = none := rfl

@[simp]
theorem violation?_access (a : Option Access) : (access a).violation? = none := by
  cases a <;> rfl

@[simp]
theorem violation?_flatMap {α : Type} (g : α → Doc) (l : List α) :
    violation? (l.flatMap g) = l.findSome? fun a => (g a).violation? := by
  rw [List.flatMap_def, violation?_flatten, List.findSome?_map]
  rfl

@[simp]
theorem violation?_comment (t : String) : (comment t).violation? = none := by
  simp [comment]

@[simp]
theorem violation?_table (positional padded : Bool) (ds : List Doc) :
    (table positional padded ds).violation? = ds.findSome? violation? := by
  unfold table
  cases ds with
  | nil => rfl
  | cons d ds =>
      cases positional
      · simp [findSome?_cons_or]
      · simp

inductive Interleaves : List Doc → Doc → Prop
  | last {own : Doc} (h : own.violation? = none) : Interleaves [] own
  | next {own d rest : Doc} {ds : List Doc} (h : own.violation? = none)
      (hrest : Interleaves ds rest) : Interleaves (d :: ds) (own ++ d ++ rest)

theorem Interleaves.violation?_eq {ds : List Doc} {d : Doc} (h : Interleaves ds d) :
    d.violation? = ds.findSome? violation? := by
  induction h with
  | last h => exact h
  | next h _ ih => rw [violation?_append, violation?_append, h, ih, findSome?_cons_or]; rfl

theorem Interleaves.cons_own {p : Piece} {ds : List Doc} {d : Doc} (hp : violation? [p] = none)
    (h : Interleaves ds d) : Interleaves ds (p :: d) := by
  cases h with
  | last h => exact .last (by simpa [hp, h] using violation?_append [p] d)
  | @next own d rest ds h hrest =>
      have hown : violation? (p :: own) = none := by
        simpa [hp, h] using violation?_append [p] own
      simpa using Interleaves.next (d := d) hown hrest

theorem Interleaves.separated (s : String) (ds : List Doc) :
    Interleaves ds (separated s ds ++ text ")") := by
  match ds with
  | [] => exact .last rfl
  | [d] => simpa [Doc.separated, List.intercalate] using
      Interleaves.next (d := d) violation?_nil (.last (violation?_text ")"))
  | d :: e :: ds =>
      have h := Interleaves.next (d := d) violation?_nil
        ((Interleaves.separated s (e :: ds)).cons_own (p := .edit (.append s)) rfl)
      simpa [separated_cons_cons, text] using h

end Doc

def CustomRenderer.VisitsAll (r : CustomRenderer) : Prop :=
  ∀ kind ds, Doc.Interleaves ds (r kind ds)

def Registry.VisitsAll (reg : Registry) : Prop :=
  ∀ kind r, List.lookup kind reg = some r → r.VisitsAll

theorem Registry.visitsAll_of_forall {reg : Registry} (h : ∀ e ∈ reg, e.2.VisitsAll) :
    reg.VisitsAll := by
  intro kind r hr
  obtain ⟨before, after, rfl, _⟩ := List.lookup_eq_some_iff.mp hr
  exact h (kind, r) (by simp)

theorem CustomRenderer.pair_visitsAll : pair.VisitsAll := by
  intro kind ds
  exact (Doc.Interleaves.separated " .. " ds).cons_own rfl

theorem CustomRenderer.lines_visitsAll : lines.VisitsAll := by
  intro kind ds
  have hbody : ∀ ds : List Doc, Doc.Interleaves ds
      ((ds.flatMap fun d => Doc.margin ++ d ++ Doc.newline) ++ [.edit .pop]
        ++ Doc.indented "finish") := by
    intro ds
    induction ds with
    | nil => exact .last rfl
    | cons d ds ih =>
        have h := Doc.Interleaves.next (d := d) (Doc.violation?_margin)
          (ih.cons_own (p := .edit (.append "\n")) rfl)
        simpa [Doc.newline, Doc.text] using h
  have h := ((hbody ds).cons_own (p := .edit .push) rfl).cons_own
    (p := .edit (.append "begin\n")) rfl
  simpa [lines, Doc.nested, Doc.text] using h

theorem Registry.violation?_customDoc {reg : Registry} (hreg : reg.VisitsAll) (k : String)
    (ds : List Doc) :
    (reg.customDoc k ds).violation? =
      (if (List.lookup k reg).isNone then some (.unregistered k) else none).or
        (ds.findSome? Doc.violation?) := by
  unfold Registry.customDoc
  cases h : List.lookup k reg with
  | none => rfl
  | some r => exact (hreg k r h k ds).violation?_eq

end LuauSyntax
