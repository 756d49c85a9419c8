import LuauSyntax.Node.Fold

namespace LuauSyntax

theorem eq_map_of_cons {α β : Type} {f : α → β} {all : List α → List β} (hnil : all [] = [])
    (hcons : ∀ a as, all (a :: as) = f a :: all as) (as : List α) : all as = as.map f := by
  induction as with
  | nil => exact hnil
  | cons a as ih => rw [hcons, ih, List.map_cons]

variable {α : Type} (f : Node → List α → α)

theorem Expr.foldAll_eq_map (es : List Expr) : Expr.foldAll f es = es.map (Expr.fold f) :=
  eq_map_of_cons rfl (fun _ _ => rfl) es

theorem Segment.foldAll_eq_map (ss : List Segment) :
    Segment.foldAll f ss = ss.map (Segment.fold f) :=
  eq_map_of_cons rfl (fun _ _ => rfl) ss

theorem ElseIfExpr.foldAll_eq_map (bs : List ElseIfExpr) :
    ElseIfExpr.foldAll f bs = bs.map (ElseIfExpr.fold f) :=
  eq_map_of_cons rfl (fun _ _ => rfl) bs

theorem TableField.foldAll_eq_map (ts : List TableField) :
    TableField.foldAll f ts = ts.map (TableField.fold f) :=
  eq_map_of_cons rfl (fun _ _ => rfl) ts

theorem Suffix.foldAll_eq_map (ss : List Suffix) :
    Suffix.foldAll f ss = ss.map (Suffix.fold f) :=
  eq_map_of_cons rfl (fun _ _ => rfl) ss

theorem GenericParam.foldAll_eq_map (gs : List GenericParam) :
    GenericParam.foldAll f gs = gs.map (GenericParam.fold f) :=
  eq_map_of_cons rfl (fun _ _ => rfl) gs

theorem Ty.foldAll_eq_map (ts : List Ty) : Ty.foldAll f ts = ts.map (Ty.fold f) :=
  eq_map_of_cons rfl (fun _ _ => rfl) ts

theorem Ty.foldAnnotations_eq_map (ts : Annotations) :
    Ty.foldAnnotations f ts = ts.reduceOption.map (Ty.fold f) := by
  induction ts with
  | nil => rfl
  | cons t ts ih =>
      rw [Ty.foldAnnotations, ih]
      cases t <;> rfl

theorem TypeField.foldAll_eq_map (ts : List TypeField) :
    TypeField.foldAll f ts = ts.map (TypeField.fold f) :=
  eq_map_of_cons rfl (fun _ _ => rfl) ts

theorem TypeArg.foldAll_eq_map (as : List TypeArg) :
    TypeArg.foldAll f as = as.map (TypeArg.fold f) :=
  eq_map_of_cons rfl (fun _ _ => rfl) as

theorem Stmt.foldAll_eq_map (b : Block) : Stmt.foldAll f b = b.map (Stmt.fold f) :=
  eq_map_of_cons rfl (fun _ _ => rfl) b

theorem ElseIf.foldAll_eq_map (bs : List ElseIf) :
    ElseIf.foldAll f bs = bs.map (ElseIf.fold f) :=
  eq_map_of_cons rfl (fun _ _ => rfl) bs

namespace Node

theorem map_fold_ofExprs (es : List Expr) : (ofExprs es).map (fold f) = Expr.foldAll f es := by
  simp [ofExprs, Expr.foldAll_eq_map, Function.comp_def, fold]

theorem map_fold_ofTypes (ts : List Ty) : (ofTypes ts).map (fold f) = Ty.foldAll f ts := by
  simp [ofTypes, Ty.foldAll_eq_map, Function.comp_def, fold]

theorem map_fold_ofAnnotations (ts : Annotations) :
    (ofAnnotations ts).map (fold f) = Ty.foldAnnotations f ts := by
  simp [ofAnnotations, Ty.foldAnnotations_eq_map, Function.comp_def, fold]

theorem map_fold_ofType? (t : Option Ty) : (ofType? t).map (fold f) = Ty.foldOption f t := by
  cases t <;> rfl

theorem map_fold_ofGenerics (gs : Option Generics) :
    (ofGenerics gs).map (fold f) = GenericParam.foldOption f gs := by
  cases gs <;> rfl

theorem fold_expr_eq (e : Expr) : e.fold f = f (.expr e) (e.children.map (fold f)) := by
  cases e with
  | table t =>
      cases t
      simp [Expr.children, Expr.fold, fold, TableField.foldAll_eq_map, Function.comp_def]
  | custom n => cases n; simp [Expr.children, Expr.fold, map_fold_ofExprs]
  | interpolated ss =>
      simp [Expr.children, Expr.fold, fold, Segment.foldAll_eq_map, Function.comp_def]
  | ifElse c t bs e =>
      simp [Expr.children, Expr.fold, fold, ElseIfExpr.foldAll_eq_map, Function.comp_def]
  | _ => simp [Expr.children, Expr.fold, fold]

theorem fold_type_eq (t : Ty) : t.fold f = f (.type t) (t.children.map (fold f)) := by
  cases t with
  | table fs => simp [Ty.children, Ty.fold, fold, TypeField.foldAll_eq_map, Function.comp_def]
  | callback gs as t =>
      simp [Ty.children, Ty.fold, fold, map_fold_ofGenerics, TypeArg.foldAll_eq_map,
        Function.comp_def]
  | _ => simp [Ty.children, Ty.fold, fold, map_fold_ofTypes, map_fold_ofType?]

theorem fold_stmt_eq (s : Stmt) : s.fold f = f (.stmt s) (s.children.map (fold f)) := by
  cases s with
  | custom n => cases n; simp [Stmt.children, Stmt.fold, map_fold_ofExprs]
  | numericFor n a z s b =>
      cases s <;> simp [Stmt.children, Stmt.fold, fold, ofExprs, Expr.foldOption]
  | ifThen c t bs e =>
      cases e <;>
        simp [Stmt.children, Stmt.fold, fold, ElseIf.foldAll_eq_map, Stmt.foldOption,
          Function.comp_def]
  | _ =>
      simp [Stmt.children, Stmt.fold, fold, map_fold_ofExprs, map_fold_ofAnnotations,
        map_fold_ofGenerics]

theorem fold_eq (n : Node) : n.fold f = f n (n.children.map (fold f)) := by
  cases n with
  | stmt s => exact fold_stmt_eq f s
  | expr e => exact fold_expr_eq f e
  | type t => exact fold_type_eq f t
  | block b => simp [children, fold, Stmt.foldAll_eq_map, Function.comp_def]
  | functionBody b =>
      cases b
      simp [children, FunctionBody.children, fold, FunctionBody.fold, map_fold_ofGenerics,
        map_fold_ofAnnotations, map_fold_ofType?, Function.comp_def]
  | call c =>
      cases c
      simp [children, Call.children, fold, Call.fold, Suffix.foldAll_eq_map, Function.comp_def]
  | args as => simp [children, fold, map_fold_ofExprs]
  | generics gs => simp [children, fold, GenericParam.foldAll_eq_map, Function.comp_def]
  | genericParam g =>
      cases g
      simp [children, GenericParam.children, fold, GenericParam.fold, map_fold_ofType?]
  | elseIf b => cases b; rfl
  | elseIfExpr b => cases b; rfl
  | typeArg a => cases a; rfl
  | segment s => cases s <;> rfl
  | tableField t => cases t <;> rfl
  | callHead h => cases h <;> rfl
  | suffix s => cases s <;> rfl
  | typeField t => cases t <;> rfl
  | _ => rfl

end Node

end LuauSyntax
