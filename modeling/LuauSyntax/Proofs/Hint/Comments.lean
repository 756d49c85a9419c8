import LuauSyntax.Proofs.Doc.Comments
import LuauSyntax.Proofs.FirstViolation

namespace LuauSyntax

open Doc

def Node.commentLines : Node → List String
  | .stmt (.comment t) => Text.lines t
  | _ => []

namespace Node

def allComments (reg : Registry) (ns : List Node) : List String :=
  ns.flatMap fun n => (n.doc reg).comments

variable {reg : Registry}

@[simp]
theorem allComments_nil : allComments reg [] = [] := rfl

@[simp]
theorem allComments_cons (n : Node) (ns : List Node) :
    allComments reg (n :: ns) = (n.doc reg).comments ++ allComments reg ns :=
  List.flatMap_cons

@[simp]
theorem allComments_append (ns ms : List Node) :
    allComments reg (ns ++ ms) = allComments reg ns ++ allComments reg ms :=
  List.flatMap_append

@[simp]
theorem allComments_map {α : Type} (f : α → Node) (l : List α) :
    allComments reg (l.map f) = l.flatMap fun a => ((f a).doc reg).comments :=
  List.flatMap_map ..

theorem flatMap_commentLines_signature (n : Node) : n.signature.flatMap commentLines = [] := by
  have hnames (gs : Option Generics) : (genericNames gs).flatMap commentLines = [] := by
    cases gs with
    | none => rfl
    | some gs => simp [genericNames, commentLines]
  unfold signature
  split <;> first | exact hnames _ | rfl

theorem flatMap_commentLines_shown (n : Node) : n.shown.flatMap commentLines =
    n.commentLines ++ n.parts.flatMap fun p => p.shown.flatMap commentLines := by
  rw [shown_eq, List.cons_append, List.flatMap_cons, List.flatMap_append,
    flatMap_commentLines_signature, List.nil_append, List.flatMap_assoc]

end Node

section

variable {reg : Registry}

open scoped Node.Unfolding

attribute [local simp] Node.commentLines Node.ofType? Node.ofGenerics comments_line
  Text.comment? List.flatMap_map

theorem comments_expr {e : Expr} (hcustom : (Node.expr e).isCustom = false) :
    (e.doc reg).comments = Node.allComments reg e.children := by
  cases e with
  | literal v => cases v <;> rfl
  | custom n => simp at hcustom
  | table t => cases t; simp [Expr.doc]
  | _ => simp [Expr.doc]

@[simp]
theorem GenericName.comments_doc (n : GenericName) : n.doc.comments = [] := by
  cases n <;> rfl

@[simp]
theorem Generics.comments_namesDoc (gs : Option Generics) : (namesDoc gs).comments = [] := by
  match gs with
  | none | some [] => rfl
  | some (g :: gs) => simp [namesDoc]

@[simp]
theorem FunctionName.comments_doc (n : FunctionName) : n.doc.comments = [] := by
  obtain ⟨path, method⟩ := n
  cases method <;> rfl

@[simp]
theorem Parameter.comments_doc (p : Parameter) : p.doc.comments = [] := by
  cases p <;> rfl

theorem comments_type (t : Ty) :
    (t.doc reg).comments = Node.allComments reg (Node.type t).parts := by
  cases t with
  | table fs => cases fs <;> simp [Ty.doc]
  | tuple ts r => cases r <;> simp [Ty.doc, Ty.restDoc]
  | _ => simp [Ty.doc]

theorem comments_parameters {ps : List Parameter} (ts : Annotations) (h : ps.length = ts.length) :
    (List.zipWith (· ++ ·) (ps.map Parameter.doc) (Ty.annotationDocs reg ts)).flatMap comments =
      Node.allComments reg (Node.ofAnnotations ts) := by
  induction ps generalizing ts with
  | nil =>
      have hts : ts = [] := List.length_eq_zero_iff.mp h.symm
      rw [hts]
      rfl
  | cons p ps ih =>
      obtain ⟨t, ts, rfl⟩ := List.exists_cons_of_length_eq_add_one h.symm
      have hrest := ih ts (by simpa using h)
      cases t <;> simp_all [Ty.annotationDocs, Ty.annotationDoc, Node.ofAnnotations]

theorem comments_functionBody {b : FunctionBody}
    (hv : (Node.functionBody b).violation? reg = none) :
    (b.doc reg).comments =
      Node.allComments reg (Node.functionBody b).parts := by
  obtain ⟨gs, ps, ts, r, body⟩ := b
  have hlength : ps.length = ts.length := by simpa [Node.violation?] using hv
  cases r <;>
    simp [FunctionBody.doc, Ty.annotationDoc, hlength, comments_parameters ts hlength]

theorem comments_annotated (ns : List String) (ts : Annotations) :
    (annotated ns (Ty.localDocs reg ts)).flatMap comments =
      Node.allComments reg (Node.ofAnnotations (ts.take ns.length)) := by
  induction ns generalizing ts with
  | nil => simp [annotated, Node.ofAnnotations]
  | cons n ns ih =>
      cases ts with
      | nil => simpa [annotated, Ty.localDocs, Node.ofAnnotations] using ih []
      | cons t ts =>
          have hrest := ih ts
          cases t with
          | none => simpa [annotated, Ty.localDocs, Node.ofAnnotations] using hrest
          | some t =>
              cases hb : t.isBasic with
              | true =>
                  have hdoc : (t.doc reg).comments = [] := by
                    cases t <;> first | rfl | simp [Ty.isBasic] at hb
                  simpa [annotated, Ty.localDocs, Node.ofAnnotations, hb, hdoc] using hrest
              | false => simpa [annotated, Ty.localDocs, Node.ofAnnotations, hb] using hrest

theorem comments_localDecl (ns : List String) (ts : Annotations) (vs : List Expr) :
    ((Stmt.localDecl ns ts vs).doc reg).comments =
      Node.allComments reg (Node.stmt (.localDecl ns ts vs)).parts := by
  unfold Stmt.doc
  split
  · rename_i n b hgiven
    simp [ofAnnotations_of_not_given hgiven, Expr.doc]
  · rename_i ns vs _ _ _ _
    cases vs <;> simp [comments_annotated]

theorem comments_stepDoc (e : Option Expr) :
    (Expr.stepDoc reg e).comments =
      Node.allComments reg (Node.ofExprs e.toList) := by
  cases e with
  | none => rfl
  | some e =>
      cases hu : e.isUnitStep with
      | true =>
          -- Only a number can be the step that is left out.
          have he : (e.doc reg).comments = [] := by
            cases e with
            | literal v => cases v <;> rfl
            | _ => simp [Expr.isUnitStep, Expr.asNumber?] at hu
          simp [Expr.stepDoc, hu, he]
      | false => simp [Expr.stepDoc, hu]

theorem comments_stmt {s : Stmt} (hcustom : (Node.stmt s).isCustom = false) :
    (s.doc reg).comments = (Node.stmt s).commentLines
      ++ Node.allComments reg (Node.stmt s).parts := by
  cases s with
  | localDecl ns ts vs => simpa using comments_localDecl ns ts vs
  | custom n => simp at hcustom
  | ifThen c t bs e => cases e <;> simp [Stmt.doc, Stmt.elseDoc]
  | numericFor n a z s b => simp [Stmt.doc, comments_stepDoc]
  | repeatUntil b c =>
      unfold Stmt.doc
      split <;> simp [Expr.doc]
  | returns vs => cases vs <;> simp [Stmt.doc]
  | call c =>
      obtain ⟨head, ss⟩ := c
      cases head <;> simp [Stmt.doc, Call.doc, CallHead.doc]
  | typeDecl x n gs t =>
      rcases gs with _ | _ | ⟨g, gs⟩
      · simp [Stmt.doc, GenericParam.declDoc]
      · simp [Stmt.doc, GenericParam.declDoc]
      · simp [Stmt.doc, GenericParam.declDoc_cons]
  | _ => simp [Stmt.doc]

theorem Node.comments_doc {n : Node} (hcustom : n.isCustom = false)
    (hv : n.violation? reg = none) : (n.doc reg).comments =
      n.commentLines ++ allComments reg n.parts := by
  cases n with
  | stmt s => exact comments_stmt hcustom
  | expr e => simpa using comments_expr hcustom
  | type t => exact (comments_type t)
  | functionBody b => exact (comments_functionBody hv)
  | chunk c => simp
  | block b => simp [Stmt.blockDoc_eq_flatMap]
  | call c => cases c; simp [Call.doc]
  | args as => simp
  | parameter p => cases p <;> rfl
  | generics gs => simp
  | genericParam g =>
      obtain ⟨n, b, d⟩ := g
      cases b <;> cases d <;> simp [GenericParam.doc, Ty.introducedDoc]
  | elseIf b => cases b; simp [ElseIf.doc]
  | elseIfExpr b => cases b; simp [ElseIfExpr.doc]
  | segment s => cases s <;> simp [Segment.doc]
  | tableField f => cases f <;> simp [TableField.doc]
  | callHead head => cases head <;> simp [CallHead.doc]
  | suffix s => cases s <;> simp [Suffix.doc]
  | typeField f => cases f <;> simp [TypeField.doc]
  | typeArg a =>
      obtain ⟨n, t⟩ := a
      cases n <;> simp [TypeArg.doc]

end

theorem Node.comments_doc_eq_shown {reg : Registry} {n : Node}
    (hcustom : ∀ m ∈ n.preorder, m.isCustom = false) (hv : (n.doc reg).violation? = none) :
    (n.doc reg).comments = n.shown.flatMap commentLines := by
  induction n using Node.inductionOn with
  | step n ih =>
      obtain ⟨hncustom, hbelow⟩ := forall_mem_preorder.mp hcustom
      obtain ⟨hn, hparts⟩ := (violation?_doc_eq_none_iff hncustom).mp hv
      have hbelow' : allComments reg n.parts =
          n.parts.flatMap fun p => p.shown.flatMap commentLines :=
        List.flatMap_congr fun p hp =>
          have hchild := n.parts_subset_children hp
          ih p hchild (hbelow p hchild) (List.findSome?_eq_none_iff.mp hparts p hp)
      rw [comments_doc hncustom hn, hbelow', flatMap_commentLines_shown]

end LuauSyntax
