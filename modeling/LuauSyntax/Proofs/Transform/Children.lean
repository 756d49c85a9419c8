import LuauSyntax.Node.Fold.Lemmas
import LuauSyntax.Proofs.Node.Refill
import LuauSyntax.Transform

namespace LuauSyntax

section Lists

variable (f : Transform Id)

@[simp]
theorem Expr.transformAll_eq_map (es : List Expr) :
    Id.run (Expr.transformAll f es) = es.map fun e => Id.run (e.transform f) :=
  eq_map_of_cons rfl (fun _ _ => rfl) es

@[simp]
theorem Segment.transformAll_eq_map (ss : List Segment) :
    Id.run (Segment.transformAll f ss) = ss.map fun s => Id.run (s.transform f) :=
  eq_map_of_cons rfl (fun _ _ => rfl) ss

@[simp]
theorem ElseIfExpr.transformAll_eq_map (bs : List ElseIfExpr) :
    Id.run (ElseIfExpr.transformAll f bs) = bs.map fun b => Id.run (b.transform f) :=
  eq_map_of_cons rfl (fun _ _ => rfl) bs

@[simp]
theorem TableField.transformAll_eq_map (ts : List TableField) :
    Id.run (TableField.transformAll f ts) = ts.map fun t => Id.run (t.transform f) :=
  eq_map_of_cons rfl (fun _ _ => rfl) ts

@[simp]
theorem Suffix.transformAll_eq_map (ss : List Suffix) :
    Id.run (Suffix.transformAll f ss) = ss.map fun s => Id.run (s.transform f) :=
  eq_map_of_cons rfl (fun _ _ => rfl) ss

@[simp]
theorem GenericParam.transformAll_eq_map (gs : Generics) :
    Id.run (GenericParam.transformAll f gs) = gs.map fun g => Id.run (g.transform f) :=
  eq_map_of_cons rfl (fun _ _ => rfl) gs

@[simp]
theorem Ty.transformAll_eq_map (ts : List Ty) :
    Id.run (Ty.transformAll f ts) = ts.map fun t => Id.run (t.transform f) :=
  eq_map_of_cons rfl (fun _ _ => rfl) ts

@[simp]
theorem TypeField.transformAll_eq_map (ts : List TypeField) :
    Id.run (TypeField.transformAll f ts) = ts.map fun t => Id.run (t.transform f) :=
  eq_map_of_cons rfl (fun _ _ => rfl) ts

@[simp]
theorem TypeArg.transformAll_eq_map (as : List TypeArg) :
    Id.run (TypeArg.transformAll f as) = as.map fun a => Id.run (a.transform f) :=
  eq_map_of_cons rfl (fun _ _ => rfl) as

@[simp]
theorem ElseIf.transformAll_eq_map (bs : List ElseIf) :
    Id.run (ElseIf.transformAll f bs) = bs.map fun b => Id.run (b.transform f) :=
  eq_map_of_cons rfl (fun _ _ => rfl) bs

theorem Stmt.transformBlock_eq_map (b : Block) :
    Id.run (Stmt.transformBlock f b) = (b.filter f.keep).map fun s => Id.run (s.transform f) := by
  induction b with
  | nil => rfl
  | cons s b ih => by_cases hs : f.keep s <;> simp [Stmt.transformBlock, ih, hs]

@[simp]
theorem Expr.transformOption_eq_map (e : Option Expr) :
    Id.run (Expr.transformOption f e) = e.map fun e => Id.run (e.transform f) := by
  cases e <;> simp [Expr.transformOption]

@[simp]
theorem Ty.transformOption_eq_map (t : Option Ty) :
    Id.run (Ty.transformOption f t) = t.map fun t => Id.run (t.transform f) := by
  cases t <;> simp [Ty.transformOption]

@[simp]
theorem Stmt.transformOption_eq_map (b : Option Block) :
    Id.run (Stmt.transformOption f b) = b.map fun b => Id.run (Stmt.transformBlock f b) := by
  cases b <;> simp [Stmt.transformOption]

@[simp]
theorem GenericParam.transformOption_eq_map (gs : Option Generics) :
    Id.run (GenericParam.transformOption f gs) =
      gs.map fun gs => Id.run (GenericParam.transformAll f gs) := by
  cases gs <;> simp [GenericParam.transformOption]

end Lists

namespace Transform

structure Descends (f : Transform Id) : Prop where
  stmt (s : Stmt) : f.stmt s = pure .descend
  type (t : Ty) : f.type t = pure .descend
  suffix (s : Suffix) : f.suffix s = pure .descend
  annotation (t : Ty) : f.annotation t = pure .descend

variable {f : Transform Id}

theorem run_atExpr {e : Expr} (he : f.expr e = pure .descend) (r : Id Expr) :
    Id.run (f.atExpr e r) = Id.run (f.rebuiltExpr (Id.run r)) := by
  simp [atExpr, he, Decision.resolve]

namespace Descends

variable (hf : f.Descends)
include hf

theorem run_atStmt (s : Stmt) (r : Id Stmt) :
    Id.run (f.atStmt s r) = Id.run (f.rebuiltStmt (Id.run r)) := by
  simp [atStmt, hf.stmt s, Decision.resolve]

theorem run_atType (t : Ty) (r : Id Ty) : Id.run (f.atType t r) = Id.run r := by
  simp [atType, hf.type t, Decision.resolve]

theorem run_atSuffix (s : Suffix) (r : Id Suffix) : Id.run (f.atSuffix s r) = Id.run r := by
  simp [atSuffix, hf.suffix s, Decision.resolve]

theorem run_transformAnnotations (ts : Annotations) :
    Id.run (Ty.transformAnnotations f ts) =
      ts.map (Option.map fun t => Id.run (t.transform f)) := by
  induction ts with
  | nil => rfl
  | cons t ts ih =>
      cases t <;> simp [Ty.transformAnnotations, Ty.transformAnnotation, atAnnotation,
        hf.annotation, Decision.resolve, ih]

end Descends

end Transform

open Transform

def Node.rebuilt (f : Transform Id) : Node → Node
  | .expr e => .expr (Id.run (f.rebuiltExpr e))
  | .stmt s => .stmt (Id.run (f.rebuiltStmt s))
  | n => n

variable {f : Transform Id}

theorem Node.kind_transform (n : Node) : (Id.run (n.transform f)).kind = n.kind := by
  cases n <;> rfl

theorem Node.kind_rebuilt (n : Node) : (n.rebuilt f).kind = n.kind := by
  cases n <;> rfl

open Node (ofAnnotations ofGenerics ofType?)

open scoped Node.Unfolding

theorem Expr.exists_transform_eq {e : Expr} (he : f.expr e = pure .descend) :
    ∃ e' : Expr, Id.run (e.transform f) = Id.run (f.rebuiltExpr e') ∧
      e'.children = e.children.map (fun c => Id.run (c.transform f)) ∧
      e'.refill = e.refill := by
  cases e with
  | table t =>
      obtain ⟨fs, p⟩ := t
      refine ⟨_, run_atExpr he _, ?_, ?_⟩ <;>
        simp [Expr.refill, Node.transform, Function.comp_def]
  | custom n =>
      obtain ⟨k, es⟩ := n
      refine ⟨_, run_atExpr he _, ?_, ?_⟩ <;>
        simp [Expr.refill, Node.transform, Function.comp_def]
  | _ =>
      refine ⟨_, run_atExpr he _, ?_, ?_⟩ <;>
        simp [Expr.refill, Node.transform, Function.comp_def]

theorem Ty.transform_eq (hf : f.Descends) (t : Ty) :
    (Id.run (t.transform f)).children = t.children.map (fun c => Id.run (c.transform f)) ∧
      (Id.run (t.transform f)).refill = t.refill := by
  cases t <;>
    simp [Ty.refill, Ty.transform, hf.run_atType, ofType?, ofGenerics, Node.transform,
      Option.toList_map, Function.comp_def]

theorem Stmt.exists_transform_eq (hf : f.Descends) (s : Stmt) :
    ∃ s' : Stmt, Id.run (s.transform f) = Id.run (f.rebuiltStmt s') ∧
      s'.children = s.children.map (fun c => Id.run (c.transform f)) ∧
      s'.refill = s.refill := by
  cases s with
  | custom n =>
      obtain ⟨k, es⟩ := n
      refine ⟨_, hf.run_atStmt _ _, ?_, ?_⟩ <;>
        simp [Stmt.refill, Node.transform, Function.comp_def]
  | _ =>
      refine ⟨_, hf.run_atStmt _ _, ?_, ?_⟩ <;>
        simp [Stmt.refill, ofAnnotations, ofGenerics, Node.transform, hf.run_transformAnnotations,
          List.reduceOption_map, Option.toList_map, Function.comp_def]

theorem Node.transform_eq (hf : f.Descends) {n : Node} (hb : n.kind ≠ .block)
    (he : n.kind ≠ .expr) (hs : n.kind ≠ .stmt) :
    (Id.run (n.transform f)).children = n.children.map (fun c => Id.run (c.transform f)) ∧
      (Id.run (n.transform f)).refill = n.refill := by
  cases n with
  | block b => exact absurd rfl hb
  | expr e => exact absurd rfl he
  | stmt s => exact absurd rfl hs
  | type t =>
      obtain ⟨hc, hr⟩ := t.transform_eq hf
      exact ⟨hc, congrArg (Node.type <$> ·) hr⟩
  | args as => simp [refill, Node.transform, Function.comp_def]
  | generics gs => simp [refill, Node.transform, Function.comp_def]
  | parameter p => simp [refill, Node.transform]
  | _ x =>
      cases x <;>
        simp [refill, Node.transform, Chunk.transform, ElseIf.transform, ElseIfExpr.transform,
          Segment.transform, TableField.transform, FunctionBody.transform, Call.transform,
          CallHead.transform, Suffix.transform, hf.run_atSuffix, GenericParam.transform,
          TypeField.transform, TypeArg.transform, ofAnnotations, ofGenerics, ofType?,
          hf.run_transformAnnotations, List.reduceOption_map, Option.toList_map,
          Function.comp_def]

theorem Node.exists_transform_eq (hf : f.Descends) {n : Node} (hb : n.kind ≠ .block)
    (he : ∀ e, n = .expr e → f.expr e = pure .descend) :
    ∃ n' : Node, Id.run (n.transform f) = n'.rebuilt f ∧
      n'.children = n.children.map (fun c => Id.run (c.transform f)) ∧
      n'.refill = n.refill := by
  cases n with
  | expr e =>
      obtain ⟨e', ht, hc, hr⟩ := Expr.exists_transform_eq (he e rfl)
      exact ⟨.expr e', congrArg Node.expr ht, hc, congrArg (Node.expr <$> ·) hr⟩
  | stmt s =>
      obtain ⟨s', ht, hc, hr⟩ := s.exists_transform_eq hf
      exact ⟨.stmt s', congrArg Node.stmt ht, hc, congrArg (Node.stmt <$> ·) hr⟩
  | _ => exact ⟨_, rfl, transform_eq hf hb nofun nofun⟩

theorem Node.exists_transform_eq_of_keep (hf : f.Descends) (hk : ∀ s, f.keep s) {n : Node}
    (he : ∀ e, n = .expr e → f.expr e = pure .descend) :
    ∃ n' : Node, Id.run (n.transform f) = n'.rebuilt f ∧
      n'.children = n.children.map (fun c => Id.run (c.transform f)) ∧
      n'.refill = n.refill := by
  by_cases hb : n.kind = .block
  · obtain ⟨b, rfl⟩ : ∃ b, n = .block b := Part.exists_node.1 hb
    have hb : b.filter f.keep = b := by simpa using fun s _ => hk s
    refine ⟨.block (Id.run (Stmt.transformBlock f b)), rfl, ?_, ?_⟩ <;>
      simp [refill, Node.transform, Stmt.transformBlock_eq_map, hb, Function.comp_def]
  · exact exists_transform_eq hf hb he

end LuauSyntax
