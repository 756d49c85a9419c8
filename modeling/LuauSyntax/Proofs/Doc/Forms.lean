import LuauSyntax.Proofs.Doc.Balanced
import LuauSyntax.Proofs.Doc.Comments
import LuauSyntax.Proofs.Node.Plain

namespace LuauSyntax

namespace Doc

inductive Form where
  | inline
  | lines

inductive HasForm (given : Doc → Prop) : Form → Doc → Prop
  | nil (f : Form) : HasForm given f []
  | text (t : String) : HasForm given .inline (text t)
  | indented (t : String) : HasForm given .inline (indented t)
  | fail (v : Violation) : HasForm given .inline [.fail v]
  | given {d : Doc} (hd : given d) : HasForm given .inline d
  | append {f : Form} {d e : Doc} (hd : HasForm given f d) (he : HasForm given f e) :
      HasForm given f (d ++ e)
  | block {d b : Doc} {t : String} (hd : HasForm given .inline d)
      (ht : t.toList.getLast? = some '\n') (hb : HasForm given .lines b) (s : String) :
      HasForm given .inline (d ++ text t ++ nested b ++ indented s)
  | line {t : String} (ht : Text.comment? t = none) : HasForm given .lines (line t)
  | comment (t : String) : HasForm given .lines (comment t)
  | ended {d : Doc} {t : String} (hd : HasForm given .inline d)
      (ht : t.toList.getLast? = some '\n') : HasForm given .lines (d ++ text t)
  | nested {d : Doc} (hd : HasForm given .lines d) : HasForm given .lines (nested d)

namespace HasForm

variable {given : Doc → Prop} {f : Form} {d : Doc} {ds : List Doc}

theorem balanced (hgiven : ∀ d, given d → d.Balanced) (h : HasForm given f d) : d.Balanced := by
  intro k
  induction h generalizing k with
  | nil | text | indented | fail | line => rfl
  | given hd => exact hgiven _ hd k
  | append _ _ ihd ihe => simp [ihd, ihe]
  | block _ _ _ _ ihd ihb => simp [ihd, ihb]
  | comment t => exact depth?_comment t k
  | ended _ _ ihd => simp [ihd]
  | nested _ ihd => simp [ihd]

end HasForm

def Form.Fits : Form → Doc → Prop
  | .inline, d => d.Flows
  | .lines, d => d.Settles

theorem lineStart?_text {t : String} (ht : t.toList.getLast? = some '\n') (start : Bool) :
    (text t).lineStart? start = some true := by
  have hne : t ≠ "" := by
    rintro rfl
    simp at ht
  simp [lineStart?, text, Piece.lineStart?, hne, ht]

namespace HasForm

variable {given : Doc → Prop} {f : Form} {d : Doc} {ds : List Doc}

theorem fits (hgiven : ∀ d, given d → d.Flows) (h : HasForm given f d) : f.Fits d := by
  induction h with
  | nil f =>
      cases f with
      | inline => exact flows_nil
      | lines => rfl
  | text t => exact flows_text t
  | indented t => exact flows_indented t
  | fail v => exact flows_fail v
  | given hd => exact hgiven _ hd
  | @append f d e _ _ ihd ihe =>
      cases f with
      | inline => exact Flows.append ihd ihe
      | lines =>
          change lineStart? (d ++ e) true = some true
          rw [lineStart?_append, show d.lineStart? true = some true from ihd, Option.bind_some]
          exact ihe
  | @block d b t _ ht _ s ihd ihb =>
      have hb : b.lineStart? true = some true := ihb
      refine flows_iff.mpr ?_
      simp [lineStart?_of_flows ihd, lineStart?_text ht, hb]
  | line ht => exact lineStart?_line ht true
  | comment t => exact settles_comment t
  | @ended d t _ ht ihd =>
      change lineStart? (d ++ Doc.text t) true = some true
      rw [lineStart?_append, lineStart?_of_flows ihd, Option.bind_some, lineStart?_text ht]
  | @nested d _ ihd => exact (lineStart?_nested d true).trans ihd

theorem margin : HasForm given .inline margin :=
  .indented ""

theorem access (a : Option Access) : HasForm given .inline (access a) := by
  cases a with
  | none => exact .nil _
  | some a => exact (text _).append (text _)

theorem wrapIf (h : HasForm given .inline d) (wrap : Bool) :
    HasForm given .inline (wrapIf wrap d) := by
  cases wrap with
  | false => exact h
  | true => exact ((text "(").append h).append (text ")")

theorem flatten (h : ∀ d ∈ ds, HasForm given f d) : HasForm given f ds.flatten := by
  induction ds with
  | nil => exact .nil f
  | cons d ds ih =>
      obtain ⟨hd, hds⟩ := List.forall_mem_cons.mp h
      exact hd.append (ih hds)

end HasForm

def AllInline (given : Doc → Prop) (ds : List Doc) : Prop :=
  ∀ d ∈ ds, HasForm given .inline d

variable {given : Doc → Prop} {d : Doc} {ds es : List Doc}

@[simp]
theorem allInline_nil : AllInline given [] := by
  simp [AllInline]

@[simp]
theorem allInline_cons :
    AllInline given (d :: ds) ↔ HasForm given .inline d ∧ AllInline given ds :=
  List.forall_mem_cons

@[simp]
theorem allInline_append :
    AllInline given (ds ++ es) ↔ AllInline given ds ∧ AllInline given es :=
  List.forall_mem_append

namespace AllInline

theorem flatten (h : AllInline given ds) : HasForm given .inline ds.flatten :=
  HasForm.flatten h

theorem separated (h : AllInline given ds) (s : String) :
    HasForm given .inline (separated s ds) := by
  induction ds with
  | nil => exact .nil _
  | cons d ds ih =>
      obtain ⟨hd, hds⟩ := List.forall_mem_cons.mp h
      cases ds with
      | nil => simpa [Doc.separated, List.intercalate] using hd
      | cons e ds =>
          rw [separated_cons_cons]
          exact (hd.append (.text s)).append (ih hds)

theorem table (h : AllInline given ds) (positional padded : Bool) :
    HasForm given .inline (table positional padded ds) := by
  unfold Doc.table
  split
  · exact .text _
  · split
    · exact ((HasForm.text _).append (h.separated ", ")).append (.text _)
    · have hfields : HasForm given .lines (ds.flatMap fun d => margin ++ d ++ text ",\n") := by
        rw [List.flatMap_def]
        refine .flatten (List.forall_mem_map.mpr fun d hd => ?_)
        exact (HasForm.margin.append (h d hd)).ended rfl
      exact (HasForm.nil _).block rfl hfields "\x7d"

theorem annotated (h : AllInline given ds) (ns : List String) :
    AllInline given (annotated ns ds) := by
  induction ns generalizing ds with
  | nil => simp [Doc.annotated]
  | cons n ns ih =>
      cases ds with
      | nil => exact List.forall_mem_cons.mpr ⟨.text n, ih h⟩
      | cons d ds =>
          obtain ⟨hd, hds⟩ := List.forall_mem_cons.mp h
          exact List.forall_mem_cons.mpr ⟨(HasForm.text n).append hd, ih hds⟩

theorem parameters (h : AllInline given ds) (ps : List Parameter) :
    AllInline given (List.zipWith (· ++ ·) (ps.map Parameter.doc) ds) := by
  induction ps generalizing ds with
  | nil => simp
  | cons p ps ih =>
      cases ds with
      | nil => simp
      | cons d ds =>
          obtain ⟨hd, hds⟩ := List.forall_mem_cons.mp h
          have hp : HasForm given .inline p.doc := by cases p <;> exact .text _
          exact List.forall_mem_cons.mpr ⟨hp.append hd, ih hds⟩

end AllInline

end Doc

open Doc

variable (given : Doc → Prop) (reg : Registry)

def Registry.Keeps : Prop :=
  ∀ kind ds, AllInline given ds → HasForm given .inline (reg.customDoc kind ds)

namespace Node

def form : Node → Form
  | .chunk _ | .block _ | .stmt _ | .elseIf _ => .lines
  | _ => .inline

def Formed (n : Node) : Prop :=
  HasForm given n.form (n.doc reg)

variable {given reg}

theorem allInline {α : Type} {f : α → Node} {l : List α} {ds : List Doc}
    (h : ∀ n ∈ l.map f, n.Formed given reg) (hform : ∀ a, (f a).form = .inline)
    (hds : ds = l.map fun a => (f a).doc reg) : AllInline given ds := by
  rw [hds]
  refine List.forall_mem_map.mpr fun a ha => ?_
  have hfa := h (f a) (List.mem_map_of_mem ha)
  rwa [Formed, hform] at hfa

end Node

variable {given reg}

open scoped Node.Unfolding

theorem GenericName.hasForm_doc (n : GenericName) : HasForm given .inline n.doc := by
  cases n with
  | single n => exact .text n
  | pack n => exact HasForm.text n |>.append (.text "...")

theorem Generics.hasForm_namesDoc (gs : Option Generics) :
    HasForm given .inline (namesDoc gs) := by
  match gs with
  | none | some [] => exact .nil _
  | some (g :: gs) =>
      have hnames : AllInline given ((g :: gs).map fun g => g.name.doc) :=
        List.forall_mem_map.mpr fun g _ => g.name.hasForm_doc
      exact HasForm.text "<" |>.append (hnames.separated ", ") |>.append (.text ">")

theorem FunctionName.hasForm_doc (n : FunctionName) : HasForm given .inline n.doc := by
  obtain ⟨path, method⟩ := n
  cases method with
  | none => exact HasForm.text _ |>.append (.nil _)
  | some m => exact HasForm.text _ |>.append ((HasForm.text ":").append (.text m))

theorem Expr.allInline_docs {es : List Expr} (h : ∀ n ∈ Node.ofExprs es, n.Formed given reg) :
    AllInline given (docs reg es) :=
  Node.allInline h (fun _ => rfl) (docs_eq_map reg es)

theorem Ty.allInline_docs {ts : List Ty} (h : ∀ n ∈ Node.ofTypes ts, n.Formed given reg) :
    AllInline given (docs reg ts) :=
  Node.allInline h (fun _ => rfl) (docs_eq_map reg ts)

theorem Expr.hasForm_doc (e : Expr) (hcustom : (Node.expr e).isCustom = true → reg.Keeps given)
    (h : ∀ n ∈ e.children, n.Formed given reg) : HasForm given .inline (e.doc reg) := by
  cases e with
  | literal v => cases v <;> exact .text _
  | symbol n => exact .text n
  | varArgs => exact .text "..."
  | binary l op r =>
      have hl : HasForm given .inline (l.doc reg) := h (.expr l) (by simp)
      have hr : HasForm given .inline (r.doc reg) := h (.expr r) (by simp)
      exact (hl.wrapIf _).append (.text " ") |>.append (.text op.token) |>.append (.text " ")
        |>.append (hr.wrapIf _)
  | unary op e =>
      have he : HasForm given .inline (e.doc reg) := h (.expr e) (by simp)
      exact HasForm.text op.token |>.append (he.wrapIf _)
  | call c =>
      have hc : HasForm given .inline (c.doc reg) := h (.call c) (by simp)
      exact hc
  | function b =>
      have hb : HasForm given .inline (b.doc reg) := h (.functionBody b) (by simp)
      exact HasForm.text "function" |>.append hb
  | table t =>
      obtain ⟨fs, padded⟩ := t
      have hfs : AllInline given (TableField.docs reg fs) :=
        Node.allInline h (fun _ => rfl) (TableField.docs_eq_map reg fs)
      exact hfs.table _ padded
  | interpolated ss =>
      have hss : AllInline given (Segment.docs reg ss) :=
        Node.allInline h (fun _ => rfl) (Segment.docs_eq_map reg ss)
      exact HasForm.text "`" |>.append hss.flatten |>.append (.text "`")
  | assertion e t =>
      have he : HasForm given .inline (e.doc reg) := h (.expr e) (by simp)
      have ht : HasForm given .inline (t.doc reg) := h (.type t) (by simp)
      exact (he.wrapIf _).append (.text " :: ") |>.append ht
  | ifElse c t bs e =>
      have hc : HasForm given .inline (c.doc reg) := h (.expr c) (by simp)
      have ht : HasForm given .inline (t.doc reg) := h (.expr t) (by simp)
      have hbs : AllInline given (ElseIfExpr.docs reg bs) :=
        Node.allInline (f := .elseIfExpr) (fun n hn => h n (by simp [List.mem_map.mp hn]))
          (fun _ => rfl) (ElseIfExpr.docs_eq_map reg bs)
      have he : HasForm given .inline (e.doc reg) := h (.expr e) (by simp)
      exact HasForm.text "if " |>.append hc |>.append (.text " then ") |>.append ht
        |>.append hbs.flatten |>.append (.text " else ") |>.append he
  | index t k =>
      have ht : HasForm given .inline (t.doc reg) := h (.expr t) (by simp)
      have hk : HasForm given .inline (k.doc reg) := h (.expr k) (by simp)
      exact (ht.wrapIf _).append (.text "[") |>.append hk |>.append (.text "]")
  | paren e =>
      have he : HasForm given .inline (e.doc reg) := h (.expr e) (by simp)
      exact HasForm.text "(" |>.append he |>.append (.text ")")
  | custom n =>
      obtain ⟨kind, es⟩ := n
      exact hcustom rfl kind _ (Expr.allInline_docs h)

theorem Ty.allInline_wrapIf {ts : List Ty} (h : ∀ n ∈ Node.ofTypes ts, n.Formed given reg)
    (wrap : Ty → Bool) : AllInline given (ts.map fun t => wrapIf (wrap t) (t.doc reg)) := by
  refine List.forall_mem_map.mpr fun t ht => ?_
  have hdoc : HasForm given .inline (t.doc reg) := h (.type t) (List.mem_map_of_mem ht)
  exact hdoc.wrapIf _

theorem Ty.hasForm_doc (t : Ty) (h : ∀ n ∈ t.children, n.Formed given reg) :
    HasForm given .inline (t.doc reg) := by
  cases t with
  | basic n => exact .text n
  | boolean b => exact .text _
  | string s => exact .text _
  | array t a =>
      have ht : HasForm given .inline (t.doc reg) := h (.type t) (by simp)
      exact HasForm.text "\x7b " |>.append (.access a) |>.append ht |>.append (.text " \x7d")
  | table fs =>
      have hfs : AllInline given (TypeField.docs reg fs) :=
        Node.allInline h (fun _ => rfl) (TypeField.docs_eq_map reg fs)
      rw [doc]
      split
      · exact .text _
      · exact HasForm.text "\x7b " |>.append (hfs.separated ", ") |>.append (.text " \x7d")
  | tuple ts r =>
      obtain ⟨hts, hr⟩ := List.forall_mem_append.mp h
      have hrest : AllInline given (restDoc reg r) := by
        cases r with
        | none => exact allInline_nil
        | some r =>
            have hr : HasForm given .inline (r.doc reg) := hr (.type r) (by simp [Node.ofType?])
            exact List.forall_mem_singleton.mpr ((HasForm.text "...").append hr)
      have hall := allInline_append.mpr ⟨allInline_docs hts, hrest⟩
      exact HasForm.text "(" |>.append (hall.separated ", ") |>.append (.text ")")
  | union ts =>
      rw [doc, unionDocs_eq_map]
      exact (allInline_wrapIf h _).separated " | "
  | inter ts =>
      rw [doc, interDocs_eq_map]
      exact (allInline_wrapIf h _).separated " & "
  | optional t =>
      have ht : HasForm given .inline (t.doc reg) := h (.type t) (by simp)
      exact (ht.wrapIf _).append (.text "?")
  | callback gs as t =>
      have has : AllInline given (TypeArg.docs reg as) :=
        Node.allInline (f := .typeArg) (fun n hn => h n (by simp [List.mem_map.mp hn]))
          (fun _ => rfl) (TypeArg.docs_eq_map reg as)
      have ht : HasForm given .inline (t.doc reg) := h (.type t) (by simp)
      exact (Generics.hasForm_namesDoc gs).append (.text "(") |>.append (has.separated ", ")
        |>.append (.text ") -> ") |>.append ht
  | typeof e =>
      have he : HasForm given .inline (e.doc reg) := h (.expr e) (by simp)
      exact HasForm.text "typeof(" |>.append he |>.append (.text ")")
  | variadic t =>
      have ht : HasForm given .inline (t.doc reg) := h (.type t) (by simp)
      exact HasForm.text "..." |>.append ht
  | generic b ts =>
      exact HasForm.text b |>.append (.text "<") |>.append ((allInline_docs h).separated ", ")
        |>.append (.text ">")

theorem Ty.hasForm_introducedDoc {t : Option Ty}
    (h : ∀ n ∈ Node.ofType? t, n.Formed given reg) (intro : String) :
    HasForm given .inline (introducedDoc reg intro t) := by
  cases t with
  | none => exact .nil _
  | some t =>
      have ht : HasForm given .inline (t.doc reg) := h (.type t) (by simp [Node.ofType?])
      exact HasForm.text intro |>.append ht

theorem Ty.hasForm_annotationDoc {t : Option Ty}
    (h : ∀ n ∈ Node.ofType? t, n.Formed given reg) :
    HasForm given .inline (annotationDoc reg t) := by
  rw [annotationDoc_eq]
  exact hasForm_introducedDoc h ": "

theorem Ty.allInline_annotationDocs {ts : Annotations}
    (h : ∀ t ∈ ts, ∀ n ∈ Node.ofType? t, n.Formed given reg) :
    AllInline given (annotationDocs reg ts) := by
  induction ts with
  | nil => exact allInline_nil
  | cons t ts ih =>
      obtain ⟨ht, hts⟩ := List.forall_mem_cons.mp h
      exact List.forall_mem_cons.mpr ⟨hasForm_annotationDoc ht, ih hts⟩

theorem Ty.allInline_localDocs {ts : Annotations}
    (h : ∀ t ∈ ts, ∀ n ∈ Node.ofType? t, n.Formed given reg) :
    AllInline given (localDocs reg ts) := by
  induction ts with
  | nil => exact allInline_nil
  | cons t ts ih =>
      obtain ⟨ht, hts⟩ := List.forall_mem_cons.mp h
      cases t with
      | none => exact List.forall_mem_cons.mpr ⟨.nil _, ih hts⟩
      | some t =>
          refine List.forall_mem_cons.mpr ⟨?_, ih hts⟩
          split
          · exact .nil _
          · exact hasForm_annotationDoc ht

theorem FunctionBody.hasForm_doc (b : FunctionBody)
    (h : ∀ n ∈ b.children, n.Formed given reg) : HasForm given .inline (b.doc reg) := by
  obtain ⟨gs, ps, ts, r, body⟩ := b
  obtain ⟨h, hbody⟩ := List.forall_mem_append.mp h
  obtain ⟨h, hr⟩ := List.forall_mem_append.mp h
  obtain ⟨-, hts⟩ := List.forall_mem_append.mp h
  have hps := (Ty.allInline_annotationDocs (Node.forall_mem_ofType? hts)).parameters ps
  have hreturns := Ty.hasForm_annotationDoc hr
  have hblock : HasForm given .lines (Stmt.blockDoc reg body) := hbody (.block body) (by simp)
  rw [doc]
  split
  · exact .fail _
  · exact (Generics.hasForm_namesDoc gs).append (.text "(") |>.append (hps.separated ", ")
      |>.append (.text ")") |>.append hreturns |>.block rfl hblock "end"

theorem Expr.hasForm_stepDoc {e : Option Expr}
    (h : ∀ n ∈ Node.ofExprs e.toList, n.Formed given reg) :
    HasForm given .inline (stepDoc reg e) := by
  cases e with
  | none => exact .nil _
  | some e =>
      have he : HasForm given .inline (e.doc reg) := h (.expr e) (by simp)
      rw [stepDoc]
      split
      · exact .nil _
      · exact HasForm.text ", " |>.append he

theorem GenericParam.hasForm_declDoc {gs : Option Generics}
    (h : ∀ n ∈ Node.ofGenerics gs, n.Formed given reg) :
    HasForm given .inline (declDoc reg gs) := by
  match gs with
  | none | some [] => exact .nil _
  | some (g :: gs) => exact h (.generics (g :: gs)) (by simp [Node.ofGenerics])

theorem Stmt.hasForm_elseDoc {b : Option Block}
    (h : ∀ n ∈ b.toList.map Node.block, n.Formed given reg) :
    HasForm given .lines (elseDoc reg b) := by
  cases b with
  | none => exact .nil _
  | some b =>
      have hb : HasForm given .lines (blockDoc reg b) := h (.block b) (by simp)
      exact (HasForm.line rfl).append hb.nested

theorem ElseIf.hasForm_docs {bs : List ElseIf}
    (h : ∀ n ∈ bs.map Node.elseIf, n.Formed given reg) :
    HasForm given .lines (docs reg bs).flatten := by
  rw [docs_eq_map]
  refine .flatten (List.forall_mem_map.mpr fun b hb => ?_)
  exact h (.elseIf b) (List.mem_map_of_mem hb)

theorem Stmt.hasForm_localDecl (ns : List String) (ts : Annotations) (vs : List Expr)
    (h : ∀ n ∈ (localDecl ns ts vs).children, ∀ m ∈ n.preorder, m.Formed given reg) :
    HasForm given .lines ((localDecl ns ts vs).doc reg) := by
  have hchildren (n) (hn : n ∈ (localDecl ns ts vs).children) : n.Formed given reg :=
    h n hn n n.mem_preorder_self
  obtain ⟨hts, hvs⟩ := List.forall_mem_append.mp hchildren
  have hnames := (Ty.allInline_localDocs (Node.forall_mem_ofType? hts)).annotated ns
  have hvalues := Expr.allInline_docs hvs
  unfold doc
  split
  · -- The body stands right after the name, without the expression that it is the value of.
    rename_i n b _
    have hb : HasForm given .inline (b.doc reg) :=
      h (.expr (.function b)) (by simp) (.functionBody b)
        (Node.mem_preorder_of_child (by simp) (Node.mem_preorder_self _))
    exact HasForm.indented "local function " |>.append (.text n) |>.append hb |>.ended rfl
  · refine HasForm.indented "local " |>.append (hnames.separated ", ") |>.append ?_ |>.ended rfl
    split
    · exact .nil _
    · exact HasForm.text " = " |>.append (hvalues.separated ", ")

theorem Stmt.hasForm_repeatUntil (b : Block) (c : Expr)
    (h : ∀ n ∈ (repeatUntil b c).children, ∀ m ∈ n.preorder, m.Formed given reg) :
    HasForm given .lines ((repeatUntil b c).doc reg) := by
  have hb : HasForm given .lines (blockDoc reg b) :=
    h (.block b) (by simp) (.block b) (Node.mem_preorder_self _)
  have hbody : HasForm given .lines (line "repeat" ++ nested (blockDoc reg b)) :=
    (HasForm.line rfl).append hb.nested
  have huntil {e : Expr} (he : HasForm given .inline (e.doc reg)) :
      HasForm given .lines (line "repeat" ++ nested (blockDoc reg b) ++ indented "until "
        ++ e.doc reg ++ newline) := by
    rw [List.append_assoc, List.append_assoc, ← List.append_assoc (indented _)]
    exact hbody.append (((HasForm.indented _).append he).ended rfl)
  unfold doc
  split
  · rename_i e
    have hnot : Node.expr e ∈ (Node.expr (.unary .not e)).preorder :=
      Node.mem_preorder_of_child (by simp) (Node.mem_preorder_self _)
    exact huntil (h (.expr (.unary .not (.unary .not e))) (by simp) (.expr e)
      (Node.mem_preorder_of_child (by simp) hnot))
  · exact huntil (h (.expr c) (by simp) (.expr c) (Node.mem_preorder_self _))

theorem Stmt.hasForm_doc (s : Stmt) (hcustom : (Node.stmt s).isCustom = true → reg.Keeps given)
    (h : ∀ n ∈ s.children, ∀ m ∈ n.preorder, m.Formed given reg) :
    HasForm given .lines (s.doc reg) := by
  have hchildren (n) (hn : n ∈ s.children) : n.Formed given reg :=
    h n hn n n.mem_preorder_self
  cases s with
  | assign ts op vs =>
      obtain ⟨hts, hvs⟩ := List.forall_mem_append.mp hchildren
      have hts := Expr.allInline_docs hts
      have hvs := Expr.allInline_docs hvs
      exact HasForm.margin |>.append (.text _) |>.append (hts.separated ", ") |>.append (.text " ")
        |>.append (.text op.token) |>.append (.text " ") |>.append (hvs.separated ", ")
        |>.ended rfl
  | localDecl ns ts vs => exact hasForm_localDecl ns ts vs h
  | function n b =>
      have hb : HasForm given .inline (b.doc reg) := hchildren (.functionBody b) (by simp)
      exact HasForm.indented "function " |>.append n.hasForm_doc |>.append hb |>.ended rfl
  | ifThen c t bs e =>
      obtain ⟨hhead, helse⟩ := List.forall_mem_append.mp hchildren
      have hc : HasForm given .inline (c.doc reg) := hhead (.expr c) (by simp)
      have ht : HasForm given .lines (blockDoc reg t) := hhead (.block t) (by simp)
      have hbs := ElseIf.hasForm_docs fun n (hn : n ∈ bs.map Node.elseIf) =>
        hhead n (List.mem_cons_of_mem _ (List.mem_cons_of_mem _ hn))
      have he := hasForm_elseDoc helse
      exact HasForm.indented "if " |>.append hc |>.ended rfl |>.append ht.nested |>.append hbs
        |>.append he |>.append (.line rfl)
  | whileDo c b =>
      have hc : HasForm given .inline (c.doc reg) := hchildren (.expr c) (by simp)
      have hb : HasForm given .lines (blockDoc reg b) := hchildren (.block b) (by simp)
      exact HasForm.indented "while " |>.append hc |>.ended rfl |>.append hb.nested
        |>.append (.line rfl)
  | numericFor n a z s b =>
      obtain ⟨hhead, hb⟩ := List.forall_mem_append.mp hchildren
      have ha : HasForm given .inline (a.doc reg) := hhead (.expr a) (by simp)
      have hz : HasForm given .inline (z.doc reg) := hhead (.expr z) (by simp)
      have hs := Expr.hasForm_stepDoc fun n (hn : n ∈ Node.ofExprs s.toList) =>
        hhead n (List.mem_cons_of_mem _ (List.mem_cons_of_mem _ hn))
      have hb : HasForm given .lines (blockDoc reg b) := hb (.block b) (by simp)
      exact HasForm.indented "for " |>.append (.text n) |>.append (.text " = ") |>.append ha
        |>.append (.text ", ") |>.append hz |>.append hs |>.ended rfl |>.append hb.nested
        |>.append (.line rfl)
  | genericFor ns es b =>
      obtain ⟨hes, hb⟩ := List.forall_mem_append.mp hchildren
      have hes := Expr.allInline_docs hes
      have hb : HasForm given .lines (blockDoc reg b) := hb (.block b) (by simp)
      exact HasForm.indented "for " |>.append (.text _) |>.append (.text " in ")
        |>.append (hes.separated ", ") |>.ended rfl |>.append hb.nested |>.append (.line rfl)
  | repeatUntil b c => exact hasForm_repeatUntil b c h
  | doBlock b =>
      have hb : HasForm given .lines (blockDoc reg b) := hchildren (.block b) (by simp)
      exact (HasForm.line rfl).append hb.nested |>.append (.line rfl)
  | returns vs =>
      have hvs := Expr.allInline_docs hchildren
      rw [doc]
      refine HasForm.indented "return" |>.append ?_ |>.ended rfl
      split
      · exact .nil _
      · exact HasForm.text " " |>.append (hvs.separated ", ")
  | breakLoop | continueLoop => exact .line rfl
  | goto l => exact .line (by simp [Text.comment?])
  | label n => exact .line (by simp [Text.comment?])
  | call c =>
      have hc : HasForm given .inline (c.doc reg) := hchildren (.call c) (by simp)
      obtain ⟨head, ss⟩ := c
      cases head with
      | name n =>
          rw [doc_call_name]
          exact HasForm.margin |>.append hc |>.ended rfl
      | expr e =>
          rw [doc_call_expr]
          exact HasForm.margin |>.append (.text ";") |>.append hc |>.ended rfl
  | typeDecl x n gs t =>
      obtain ⟨hgs, ht⟩ := List.forall_mem_append.mp hchildren
      have hgs := GenericParam.hasForm_declDoc hgs
      have ht : HasForm given .inline (t.doc reg) := ht (.type t) (by simp)
      exact HasForm.indented _ |>.append (.text n) |>.append hgs |>.append (.text " = ")
        |>.append ht |>.ended rfl
  | comment t => exact .comment t
  | custom n =>
      obtain ⟨kind, es⟩ := n
      have hdoc := hcustom rfl kind _ (Expr.allInline_docs hchildren)
      exact HasForm.margin |>.append hdoc |>.ended rfl

theorem Suffix.hasForm_doc (s : Suffix) (h : ∀ n ∈ s.children, n.Formed given reg) :
    HasForm given .inline (s.doc reg) := by
  cases s with
  | call as =>
      have has : HasForm given .inline ((Node.args as).doc reg) := h (.args as) (by simp)
      exact has
  | method n as =>
      have has : HasForm given .inline ((Node.args as).doc reg) := h (.args as) (by simp)
      rw [doc_method]
      exact HasForm.text ":" |>.append (.text n) |>.append has
  | dot n => exact HasForm.text "." |>.append (.text n)
  | brackets k =>
      have hk : HasForm given .inline (k.doc reg) := h (.expr k) (by simp)
      exact HasForm.text "[" |>.append hk |>.append (.text "]")

theorem TableField.hasForm_doc (f : TableField) (h : ∀ n ∈ f.children, n.Formed given reg) :
    HasForm given .inline (f.doc reg) := by
  cases f with
  | positional v =>
      have hv : HasForm given .inline (v.doc reg) := h (.expr v) (by simp)
      exact hv
  | named k v =>
      have hv : HasForm given .inline (v.doc reg) := h (.expr v) (by simp)
      exact HasForm.text k |>.append (.text " = ") |>.append hv
  | keyed k v =>
      have hk : HasForm given .inline (k.doc reg) := h (.expr k) (by simp)
      have hv : HasForm given .inline (v.doc reg) := h (.expr v) (by simp)
      exact HasForm.text "[" |>.append hk |>.append (.text "] = ") |>.append hv

theorem TypeField.hasForm_doc (f : TypeField) (h : ∀ n ∈ f.children, n.Formed given reg) :
    HasForm given .inline (f.doc reg) := by
  cases f with
  | named a k v =>
      have hv : HasForm given .inline (v.doc reg) := h (.type v) (by simp)
      exact HasForm.access a |>.append (.text k) |>.append (.text ": ") |>.append hv
  | indexed a k v =>
      have hk : HasForm given .inline (k.doc reg) := h (.type k) (by simp)
      have hv : HasForm given .inline (v.doc reg) := h (.type v) (by simp)
      exact HasForm.access a |>.append (.text "[") |>.append hk |>.append (.text "]")
        |>.append (.text ": ") |>.append hv

theorem Node.formed (n : Node)
    (hcustom : ∀ m ∈ n.preorder, m.isCustom = true → reg.Keeps given) : n.Formed given reg := by
  -- For the nodes below as well, since a statement may draw a part of its child without the child.
  suffices hall : ∀ m ∈ n.preorder, m.Formed given reg from hall n n.mem_preorder_self
  induction n using Node.inductionOn with
  | step n ih =>
      obtain ⟨hn, hbelow⟩ := forall_mem_preorder.mp hcustom
      have hdeep : ∀ c ∈ n.children, ∀ m ∈ c.preorder, m.Formed given reg :=
        fun c hc => ih c hc (hbelow c hc)
      have h (c) (hc : c ∈ n.children) : c.Formed given reg := hdeep c hc c c.mem_preorder_self
      refine forall_mem_preorder.mpr ⟨?_, hdeep⟩
      cases n with
      | stmt s => exact s.hasForm_doc hn hdeep
      | expr e => exact e.hasForm_doc hn h
      | type t => exact t.hasForm_doc h
      | functionBody b => exact b.hasForm_doc h
      | suffix s => exact s.hasForm_doc h
      | tableField f => exact f.hasForm_doc h
      | typeField f => exact f.hasForm_doc h
      | chunk c => exact h (.block c.block) (by simp)
      | block b =>
          rw [Formed, doc, Stmt.blockDoc_eq_flatMap, List.flatMap_def]
          exact .flatten (List.forall_mem_map.mpr fun s hs => h (.stmt s) (List.mem_map_of_mem hs))
      | call c =>
          obtain ⟨head, ss⟩ := c
          obtain ⟨hhead, hss⟩ := List.forall_mem_cons.mp h
          have hss : AllInline given (Suffix.docs reg ss) :=
            allInline hss (fun _ => rfl) (Suffix.docs_eq_map reg ss)
          exact HasForm.append hhead hss.flatten
      | args as =>
          have has := Expr.allInline_docs h
          exact HasForm.text "(" |>.append (has.separated ", ") |>.append (.text ")")
      | parameter p => cases p <;> exact .text _
      | generics gs =>
          have hgs : AllInline given (GenericParam.docs reg gs) :=
            allInline h (fun _ => rfl) (GenericParam.docs_eq_map reg gs)
          exact HasForm.text "<" |>.append (hgs.separated ", ") |>.append (.text ">")
      | genericParam g =>
          obtain ⟨n, b, d⟩ := g
          obtain ⟨hb, hd⟩ := List.forall_mem_append.mp h
          exact n.hasForm_doc.append (Ty.hasForm_introducedDoc hb " extends ")
            |>.append (Ty.hasForm_introducedDoc hd " = ")
      | elseIf b =>
          obtain ⟨c, b⟩ := b
          have hc : HasForm given .inline (c.doc reg) := h (.expr c) (by simp)
          have hb : HasForm given .lines (Stmt.blockDoc reg b) := h (.block b) (by simp)
          exact HasForm.indented "elseif " |>.append hc |>.ended rfl |>.append hb.nested
      | elseIfExpr b =>
          obtain ⟨c, v⟩ := b
          have hc : HasForm given .inline (c.doc reg) := h (.expr c) (by simp)
          have hv : HasForm given .inline (v.doc reg) := h (.expr v) (by simp)
          exact HasForm.text " elseif " |>.append hc |>.append (.text " then ") |>.append hv
      | segment s =>
          cases s with
          | text t => exact .text t
          | expr e =>
              have he : HasForm given .inline (e.doc reg) := h (.expr e) (by simp)
              exact HasForm.text "$\x7b" |>.append he |>.append (.text "\x7d")
      | callHead head =>
          cases head with
          | name n => exact .text n
          | expr e =>
              have he : HasForm given .inline (e.doc reg) := h (.expr e) (by simp)
              exact HasForm.text "(" |>.append he |>.append (.text ")")
      | typeArg a =>
          obtain ⟨n, t⟩ := a
          have ht : HasForm given .inline (t.doc reg) := h (.type t) (by simp)
          cases n with
          | none => exact ht
          | some n => exact HasForm.text n |>.append (.text ": ") |>.append ht

end LuauSyntax
