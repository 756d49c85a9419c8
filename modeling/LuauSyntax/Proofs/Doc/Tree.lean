import LuauSyntax.Doc.Tree
import LuauSyntax.Node.Fold.Lemmas

namespace LuauSyntax

open Doc

theorem Doc.separated_cons_cons (s : String) (d e : Doc) (ds : List Doc) :
    separated s (d :: e :: ds) = d ++ text s ++ separated s (e :: ds) := by
  simp [separated, List.intercalate, List.intersperse]

def Node.doc (reg : Registry) : Node → Doc
  | .chunk c => Stmt.blockDoc reg c.block
  | .block b => Stmt.blockDoc reg b
  | .stmt s => s.doc reg
  | .elseIf b => b.doc reg
  | .expr e => e.doc reg
  | .elseIfExpr b => b.doc reg
  | .segment s => s.doc reg
  | .tableField f => f.doc reg
  | .functionBody b => b.doc reg
  | .call c => c.doc reg
  | .args as => text "(" ++ separated ", " (Expr.docs reg as) ++ text ")"
  | .callHead h => h.doc reg
  | .suffix s => s.doc reg
  | .parameter p => p.doc
  | .generics gs => text "<" ++ separated ", " (GenericParam.docs reg gs) ++ text ">"
  | .genericParam g => g.doc reg
  | .type t => t.doc reg
  | .typeField f => f.doc reg
  | .typeArg a => a.doc reg

namespace Node.Unfolding

attribute [scoped simp] Node.doc

end Node.Unfolding

variable (reg : Registry)

@[simp]
theorem Expr.docs_eq_map (es : List Expr) : Expr.docs reg es = es.map (Expr.doc reg) :=
  eq_map_of_cons rfl (fun _ _ => rfl) es

@[simp]
theorem Segment.docs_eq_map (ss : List Segment) :
    Segment.docs reg ss = ss.map (Segment.doc reg) :=
  eq_map_of_cons rfl (fun _ _ => rfl) ss

@[simp]
theorem ElseIfExpr.docs_eq_map (bs : List ElseIfExpr) :
    ElseIfExpr.docs reg bs = bs.map (ElseIfExpr.doc reg) :=
  eq_map_of_cons rfl (fun _ _ => rfl) bs

@[simp]
theorem TableField.docs_eq_map (ts : List TableField) :
    TableField.docs reg ts = ts.map (TableField.doc reg) :=
  eq_map_of_cons rfl (fun _ _ => rfl) ts

@[simp]
theorem Suffix.docs_eq_map (ss : List Suffix) : Suffix.docs reg ss = ss.map (Suffix.doc reg) :=
  eq_map_of_cons rfl (fun _ _ => rfl) ss

@[simp]
theorem GenericParam.docs_eq_map (gs : List GenericParam) :
    GenericParam.docs reg gs = gs.map (GenericParam.doc reg) :=
  eq_map_of_cons rfl (fun _ _ => rfl) gs

@[simp]
theorem Ty.docs_eq_map (ts : List Ty) : Ty.docs reg ts = ts.map (Ty.doc reg) :=
  eq_map_of_cons rfl (fun _ _ => rfl) ts

@[simp]
theorem Ty.unionDocs_eq_map (ts : List Ty) :
    Ty.unionDocs reg ts = ts.map fun t => Doc.wrapIf t.isWrappedInUnion (t.doc reg) :=
  eq_map_of_cons rfl (fun _ _ => rfl) ts

@[simp]
theorem Ty.interDocs_eq_map (ts : List Ty) :
    Ty.interDocs reg ts = ts.map fun t => Doc.wrapIf t.isWrappedInInter (t.doc reg) :=
  eq_map_of_cons rfl (fun _ _ => rfl) ts

@[simp]
theorem TypeField.docs_eq_map (ts : List TypeField) :
    TypeField.docs reg ts = ts.map (TypeField.doc reg) :=
  eq_map_of_cons rfl (fun _ _ => rfl) ts

@[simp]
theorem TypeArg.docs_eq_map (as : List TypeArg) :
    TypeArg.docs reg as = as.map (TypeArg.doc reg) :=
  eq_map_of_cons rfl (fun _ _ => rfl) as

theorem GenericParam.declDoc_cons (g : GenericParam) (gs : Generics) :
    declDoc reg (some (g :: gs)) = (Node.generics (g :: gs)).doc reg := rfl

theorem Ty.annotationDoc_eq (t : Option Ty) :
    annotationDoc reg t = introducedDoc reg ": " t := by
  cases t <;> rfl

theorem Suffix.doc_method (n : String) (as : List Expr) :
    (Suffix.method n as).doc reg = text ":" ++ text n ++ (Node.args as).doc reg := by
  simp [doc, Node.doc]

theorem Stmt.doc_call_name (n : String) (ss : List Suffix) :
    (Stmt.call ⟨.name n, ss⟩).doc reg = margin ++ Call.doc reg ⟨.name n, ss⟩ ++ newline := by
  simp [doc, Call.doc, CallHead.doc]

theorem Stmt.doc_call_expr (e : Expr) (ss : List Suffix) :
    (Stmt.call ⟨.expr e, ss⟩).doc reg =
      margin ++ text ";" ++ Call.doc reg ⟨.expr e, ss⟩ ++ newline := by
  simp [doc, Call.doc, CallHead.doc]

theorem Stmt.blockDoc_eq_flatMap (b : Block) :
    Stmt.blockDoc reg b = b.flatMap (Stmt.doc reg) := by
  induction b with
  | nil => rfl
  | cons s ss ih => rw [Stmt.blockDoc, ih, List.flatMap_cons]

@[simp]
theorem ElseIf.docs_eq_map (bs : List ElseIf) :
    ElseIf.docs reg bs = bs.map (ElseIf.doc reg) :=
  eq_map_of_cons rfl (fun _ _ => rfl) bs

end LuauSyntax
