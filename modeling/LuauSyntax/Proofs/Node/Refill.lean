import LuauSyntax.Node
import Mathlib.Data.List.ReduceOption

namespace LuauSyntax

class Part (α : Type) where
  kind : Node.Kind
  node : α → Node
  ofNode? : Node → Option α
  ofNode?_eq_some {n : Node} {a : α} : ofNode? n = some a ↔ n = node a := by
    intro n a
    cases n <;> simp [eq_comm]
  exists_node {n : Node} : n.kind = kind ↔ ∃ a, n = node a := by
    intro n
    cases n <;> simp [Node.kind]

instance : Part Block where
  kind := .block
  node := .block
  ofNode?
    | .block b => some b
    | _ => none

instance : Part Stmt where
  kind := .stmt
  node := .stmt
  ofNode?
    | .stmt s => some s
    | _ => none

instance : Part ElseIf where
  kind := .elseIf
  node := .elseIf
  ofNode?
    | .elseIf b => some b
    | _ => none

instance : Part Expr where
  kind := .expr
  node := .expr
  ofNode?
    | .expr e => some e
    | _ => none

instance : Part ElseIfExpr where
  kind := .elseIfExpr
  node := .elseIfExpr
  ofNode?
    | .elseIfExpr b => some b
    | _ => none

instance : Part Segment where
  kind := .segment
  node := .segment
  ofNode?
    | .segment s => some s
    | _ => none

instance : Part TableField where
  kind := .tableField
  node := .tableField
  ofNode?
    | .tableField f => some f
    | _ => none

instance : Part FunctionBody where
  kind := .functionBody
  node := .functionBody
  ofNode?
    | .functionBody b => some b
    | _ => none

instance : Part Call where
  kind := .call
  node := .call
  ofNode?
    | .call c => some c
    | _ => none

instance : Part (List Expr) where
  kind := .args
  node := .args
  ofNode?
    | .args as => some as
    | _ => none

instance : Part CallHead where
  kind := .callHead
  node := .callHead
  ofNode?
    | .callHead h => some h
    | _ => none

instance : Part Suffix where
  kind := .suffix
  node := .suffix
  ofNode?
    | .suffix s => some s
    | _ => none

instance : Part Parameter where
  kind := .parameter
  node := .parameter
  ofNode?
    | .parameter p => some p
    | _ => none

instance : Part Generics where
  kind := .generics
  node := .generics
  ofNode?
    | .generics gs => some gs
    | _ => none

instance : Part GenericParam where
  kind := .genericParam
  node := .genericParam
  ofNode?
    | .genericParam g => some g
    | _ => none

instance : Part Ty where
  kind := .type
  node := .type
  ofNode?
    | .type t => some t
    | _ => none

instance : Part TypeField where
  kind := .typeField
  node := .typeField
  ofNode?
    | .typeField f => some f
    | _ => none

instance : Part TypeArg where
  kind := .typeArg
  node := .typeArg
  ofNode?
    | .typeArg a => some a
    | _ => none

abbrev Refill (α : Type) := StateT (List Node) Option α

namespace Refill

variable {α : Type} [Part α]

def take : Refill α
  | [] => none
  | c :: cs => (Part.ofNode? c).map (·, cs)

def takeAll : Nat → Refill (List α)
  | 0 => pure []
  | n + 1 => return (← take) :: (← takeAll n)

def takeIf : Bool → Refill (Option α)
  | false => pure none
  | true => return some (← take)

def takeEach : List Bool → Refill (List (Option α))
  | [] => pure []
  | b :: bs => return (← takeIf b) :: (← takeEach bs)

end Refill

open Refill

def Expr.refill : Expr → Refill Expr
  | .binary _ op _ => return .binary (← take) op (← take)
  | .unary op _ => return .unary op (← take)
  | .call _ => return .call (← take)
  | .function _ => return .function (← take)
  | .table t => return .table ⟨← takeAll t.fields.length, t.padded⟩
  | .interpolated ss => return .interpolated (← takeAll ss.length)
  | .assertion _ _ => return .assertion (← take) (← take)
  | .ifElse _ _ bs _ =>
      return .ifElse (← take) (← take) (← takeAll bs.length)
        (← take)
  | .index _ _ => return .index (← take) (← take)
  | .paren _ => return .paren (← take)
  | .custom n => return .custom ⟨n.kind, ← takeAll n.children.length⟩
  | .literal v => pure (.literal v)
  | .symbol n => pure (.symbol n)
  | .varArgs => pure .varArgs

def Ty.refill : Ty → Refill Ty
  | .array _ a => return .array (← take) a
  | .table fs => return .table (← takeAll fs.length)
  | .tuple ts r => return .tuple (← takeAll ts.length) (← takeIf r.isSome)
  | .union ts => return .union (← takeAll ts.length)
  | .inter ts => return .inter (← takeAll ts.length)
  | .optional _ => return .optional (← take)
  | .callback gs as _ =>
      return .callback (← takeIf gs.isSome) (← takeAll as.length)
        (← take)
  | .typeof _ => return .typeof (← take)
  | .variadic _ => return .variadic (← take)
  | .generic b ts => return .generic b (← takeAll ts.length)
  | .basic n => pure (.basic n)
  | .boolean b => pure (.boolean b)
  | .string s => pure (.string s)

def Stmt.refill : Stmt → Refill Stmt
  | .assign ts op vs => return .assign (← takeAll ts.length) op (← takeAll vs.length)
  | .localDecl ns ts vs =>
      return .localDecl ns (← takeEach (ts.map Option.isSome)) (← takeAll vs.length)
  | .function n _ => return .function n (← take)
  | .ifThen _ _ bs e =>
      return .ifThen (← take) (← take) (← takeAll bs.length)
        (← takeIf e.isSome)
  | .whileDo _ _ => return .whileDo (← take) (← take)
  | .numericFor n _ _ s _ =>
      return .numericFor n (← take) (← take) (← takeIf s.isSome) (← take)
  | .genericFor ns es _ => return .genericFor ns (← takeAll es.length) (← take)
  | .repeatUntil _ _ => return .repeatUntil (← take) (← take)
  | .doBlock _ => return .doBlock (← take)
  | .returns vs => return .returns (← takeAll vs.length)
  | .call _ => return .call (← take)
  | .typeDecl x n gs _ => return .typeDecl x n (← takeIf gs.isSome) (← take)
  | .custom n => return .custom ⟨n.kind, ← takeAll n.children.length⟩
  | .breakLoop => pure .breakLoop
  | .continueLoop => pure .continueLoop
  | .goto l => pure (.goto l)
  | .label n => pure (.label n)
  | .comment t => pure (.comment t)

def Node.refill : Node → Refill Node
  | .chunk _ => return .chunk ⟨← take⟩
  | .block b => return .block (← takeAll b.length)
  | .stmt s => .stmt <$> s.refill
  | .elseIf _ => return .elseIf ⟨← take, ← take⟩
  | .expr e => .expr <$> e.refill
  | .elseIfExpr _ => return .elseIfExpr ⟨← take, ← take⟩
  | .segment (.text t) => pure (.segment (.text t))
  | .segment (.expr _) => return .segment (.expr (← take))
  | .tableField (.positional _) => return .tableField (.positional (← take))
  | .tableField (.named k _) => return .tableField (.named k (← take))
  | .tableField (.keyed _ _) => return .tableField (.keyed (← take) (← take))
  | .functionBody b =>
      return .functionBody ⟨← takeIf b.generics.isSome,
        ← takeAll b.parameters.length, ← takeEach (b.types.map Option.isSome),
        ← takeIf b.returns.isSome, ← take⟩
  | .call c => return .call ⟨← take, ← takeAll c.suffixes.length⟩
  | .args as => return .args (← takeAll as.length)
  | .callHead (.name n) => pure (.callHead (.name n))
  | .callHead (.expr _) => return .callHead (.expr (← take))
  | .suffix (.call _) => return .suffix (.call (← take))
  | .suffix (.method n _) => return .suffix (.method n (← take))
  | .suffix (.dot n) => pure (.suffix (.dot n))
  | .suffix (.brackets _) => return .suffix (.brackets (← take))
  | .parameter p => pure (.parameter p)
  | .generics gs => return .generics (← takeAll gs.length)
  | .genericParam g =>
      return .genericParam ⟨g.name, ← takeIf g.bound.isSome,
        ← takeIf g.default.isSome⟩
  | .type t => .type <$> t.refill
  | .typeField (.named a k _) => return .typeField (.named a k (← take))
  | .typeField (.indexed a _ _) => return .typeField (.indexed a (← take) (← take))
  | .typeArg a => return .typeArg ⟨a.name, ← take⟩

namespace Refill

variable {α β : Type} {cs rest : List Node}

@[simp]
theorem pure_eq_some {a b : α} :
    (pure a : Refill α) cs = some (b, rest) ↔ a = b ∧ cs = rest := by
  change some (a, cs) = some (b, rest) ↔ _
  simp

@[simp]
theorem bind_eq_some {x : Refill α} {f : α → Refill β} {b : β} :
    (x >>= f) cs = some (b, rest) ↔
      ∃ a left, x cs = some (a, left) ∧ f a left = some (b, rest) := by
  simp [bind, StateT.bind, Option.bind_eq_some_iff]

@[simp]
theorem map_eq_some {x : Refill α} {f : α → β} {b : β} :
    (f <$> x) cs = some (b, rest) ↔ ∃ a, x cs = some (a, rest) ∧ f a = b := by
  simp [Functor.map, StateT.map, Option.bind_eq_some_iff]

variable [Part α]

@[simp]
theorem take_eq_some {a : α} : take cs = some (a, rest) ↔ cs = Part.node a :: rest := by
  cases cs <;> simp [take, Part.ofNode?_eq_some]

@[simp]
theorem takeAll_eq_some {n : Nat} {as : List α} :
    takeAll n cs = some (as, rest) ↔ as.length = n ∧ cs = as.map Part.node ++ rest := by
  induction n generalizing as cs with
  | zero => cases as <;> simp [takeAll]
  | succ n ih => cases as <;> simp [takeAll, ih, and_comm]

@[simp]
theorem takeIf_eq_some {b : Bool} {o : Option α} :
    takeIf b cs = some (o, rest) ↔ o.isSome = b ∧ cs = o.toList.map Part.node ++ rest := by
  cases b <;> cases o <;> simp [takeIf]

@[simp]
theorem takeEach_eq_some {bs : List Bool} {os : List (Option α)} :
    takeEach bs cs = some (os, rest) ↔
      os.map Option.isSome = bs ∧ cs = os.reduceOption.map Part.node ++ rest := by
  induction bs generalizing os cs with
  | nil => cases os <;> simp [takeEach]
  | cons b bs ih =>
      cases os with
      | nil => simp [takeEach]
      | cons o os => cases o <;> simp [takeEach, ih, and_left_comm, and_assoc]

end Refill

open Node (ofExprs ofTypes ofAnnotations ofGenerics ofType?)

variable {cs rest : List Node}

theorem Expr.children_of_refill {e e' : Expr} (h : e.refill cs = some (e', rest)) :
    cs = e'.children ++ rest ∧ e'.refill = e.refill := by
  cases e <;> simp [Expr.refill] at h <;> casesm* _ ∧ _, Exists _ <;> subst_vars <;>
    simp_all [Expr.refill, Expr.children, Part.node, ofExprs]

theorem Ty.children_of_refill {t t' : Ty} (h : t.refill cs = some (t', rest)) :
    cs = t'.children ++ rest ∧ t'.refill = t.refill := by
  cases t <;> simp [Ty.refill] at h <;> casesm* _ ∧ _, Exists _ <;> subst_vars <;>
    simp_all [Ty.refill, Ty.children, Part.node, ofTypes, ofGenerics, ofType?]

theorem Stmt.children_of_refill {s s' : Stmt} (h : s.refill cs = some (s', rest)) :
    cs = s'.children ++ rest ∧ s'.refill = s.refill := by
  cases s <;> simp [Stmt.refill] at h <;> casesm* _ ∧ _, Exists _ <;> subst_vars <;>
    simp_all [Stmt.refill, Stmt.children, Part.node, ofExprs, ofAnnotations, ofGenerics]

theorem Expr.refill_children (e : Expr) : e.refill e.children = some (e, []) := by
  cases e with
  | table t => cases t; simp [Expr.refill, Expr.children, Part.node]
  | custom n => cases n; simp [Expr.refill, Expr.children, Part.node, ofExprs]
  | _ => simp [Expr.refill, Expr.children, Part.node]

theorem Ty.refill_children (t : Ty) : t.refill t.children = some (t, []) := by
  cases t <;> simp [Ty.refill, Ty.children, Part.node, ofTypes, ofGenerics, ofType?]

theorem Stmt.refill_children (s : Stmt) : s.refill s.children = some (s, []) := by
  cases s with
  | custom n => cases n; simp [Stmt.refill, Stmt.children, Part.node, ofExprs]
  | _ => simp [Stmt.refill, Stmt.children, Part.node, ofExprs, ofAnnotations, ofGenerics]

namespace Node

theorem children_of_refill {n n' : Node} (h : n.refill cs = some (n', rest)) :
    cs = n'.children ++ rest ∧ n'.refill = n.refill := by
  cases n with
  | expr e =>
      simp only [refill, map_eq_some] at h
      obtain ⟨e', he, rfl⟩ := h
      simp [refill, children, Expr.children_of_refill he]
  | type t =>
      simp only [refill, map_eq_some] at h
      obtain ⟨t', ht, rfl⟩ := h
      simp [refill, children, Ty.children_of_refill ht]
  | stmt s =>
      simp only [refill, map_eq_some] at h
      obtain ⟨s', hs, rfl⟩ := h
      simp [refill, children, Stmt.children_of_refill hs]
  | segment x | tableField x | callHead x | suffix x | typeField x =>
      cases x <;> simp [refill] at h <;> casesm* _ ∧ _, Exists _ <;> subst_vars <;>
        simp [refill, children, Segment.children, TableField.children, CallHead.children,
          Suffix.children, TypeField.children, Part.node]
  | _ =>
      simp [refill] at h
      casesm* _ ∧ _, Exists _
      subst_vars
      simp_all [refill, children, Part.node, ElseIf.children, ElseIfExpr.children,
        FunctionBody.children, Call.children, GenericParam.children, TypeArg.children, ofExprs,
        ofAnnotations, ofGenerics, ofType?]

theorem refill_children (n : Node) : n.refill n.children = some (n, []) := by
  cases n with
  | expr e => simp [refill, children, Expr.refill_children]
  | type t => simp [refill, children, Ty.refill_children]
  | stmt s => simp [refill, children, Stmt.refill_children]
  | segment x | tableField x | callHead x | suffix x | typeField x =>
      cases x <;> simp [refill, children, Segment.children, TableField.children,
        CallHead.children, Suffix.children, TypeField.children, Part.node]
  | block xs | args xs | parameter x | generics xs =>
      simp [refill, children, Part.node, ofExprs]
  | _ x =>
      cases x
      simp [refill, children, Part.node, ElseIf.children, ElseIfExpr.children,
        FunctionBody.children, Call.children, GenericParam.children, TypeArg.children,
        ofAnnotations, ofGenerics, ofType?]

theorem eq_of_refill_eq {n n' : Node} (hr : n.refill = n'.refill)
    (hc : n.children = n'.children) : n = n' := by
  have h := n.refill_children
  rw [hr, hc, n'.refill_children] at h
  simp_all

end Node

namespace Refill

variable {α β γ δ : Type}

def Follows (x : Refill α) (y : Refill β) : Prop :=
  ∀ ⦃cs cs' rest : List Node⦄ ⦃a : α⦄, cs.map Node.kind = cs'.map Node.kind →
    x cs = some (a, rest) →
      ∃ b rest', y cs' = some (b, rest') ∧ rest.map Node.kind = rest'.map Node.kind

theorem follows_pure (a : α) (b : β) : Follows (pure a) (pure b) := by
  intro cs cs' rest a' hk h
  simp_all

theorem follows_bind {x : Refill α} {y : Refill β} {f : α → Refill γ} {g : β → Refill δ}
    (hxy : Follows x y) (hfg : ∀ a b, Follows (f a) (g b)) : Follows (x >>= f) (y >>= g) := by
  intro cs cs' rest c hk h
  obtain ⟨a, left, ha, hc⟩ := bind_eq_some.1 h
  obtain ⟨b, left', hb, hk'⟩ := hxy hk ha
  obtain ⟨d, rest', hd, hk''⟩ := hfg a b hk' hc
  exact ⟨d, rest', bind_eq_some.2 ⟨b, left', hb, hd⟩, hk''⟩

theorem follows_map {x : Refill α} {y : Refill β} (f : α → γ) (g : β → δ)
    (hxy : Follows x y) : Follows (f <$> x) (g <$> y) := by
  simp only [map_eq_pure_bind]
  exact follows_bind hxy fun a b => follows_pure (f a) (g b)

variable [Part α]

theorem follows_take : Follows (take : Refill α) (take : Refill α) := by
  intro cs cs' rest a hk h
  rw [take_eq_some] at h
  subst h
  obtain ⟨c, cs', rfl, hc, hrest⟩ := List.map_eq_cons_iff.1 hk.symm
  obtain ⟨b, rfl⟩ := Part.exists_node.1 (hc.trans (Part.exists_node.2 ⟨a, rfl⟩))
  exact ⟨b, cs', take_eq_some.2 rfl, hrest.symm⟩

theorem follows_takeAll (n : Nat) :
    Follows (takeAll n : Refill (List α)) (takeAll n : Refill (List α)) := by
  induction n with
  | zero => exact follows_pure [] []
  | succ n ih =>
      exact follows_bind follows_take fun _ _ => follows_bind ih fun _ _ => follows_pure _ _

theorem follows_takeIf (b : Bool) :
    Follows (takeIf b : Refill (Option α)) (takeIf b : Refill (Option α)) := by
  cases b with
  | false => exact follows_pure none none
  | true => exact follows_bind follows_take fun _ _ => follows_pure _ _

theorem follows_takeEach (bs : List Bool) :
    Follows (takeEach bs : Refill (List (Option α))) (takeEach bs : Refill (List (Option α))) := by
  induction bs with
  | nil => exact follows_pure [] []
  | cons b bs ih =>
      exact follows_bind (follows_takeIf b) fun _ _ => follows_bind ih fun _ _ => follows_pure _ _

end Refill

theorem Expr.follows_refill (e : Expr) : Follows e.refill e.refill := by
  cases e <;> simp only [refill] <;>
    repeat' first
      | exact follows_pure _ _ | exact follows_take | exact follows_takeAll _
      | refine follows_bind ?_ fun _ _ => ?_

theorem Ty.follows_refill (t : Ty) : Follows t.refill t.refill := by
  cases t <;> simp only [refill] <;>
    repeat' first
      | exact follows_pure _ _ | exact follows_take | exact follows_takeAll _
      | exact follows_takeIf _ | refine follows_bind ?_ fun _ _ => ?_

theorem Stmt.follows_refill (s : Stmt) : Follows s.refill s.refill := by
  cases s <;> simp only [refill] <;>
    repeat' first
      | exact follows_pure _ _ | exact follows_take | exact follows_takeAll _
      | exact follows_takeIf _ | exact follows_takeEach _ | refine follows_bind ?_ fun _ _ => ?_

namespace Node

theorem follows_refill (n : Node) : Follows n.refill n.refill := by
  cases n with
  | expr e => exact follows_map _ _ e.follows_refill
  | type t => exact follows_map _ _ t.follows_refill
  | stmt s => exact follows_map _ _ s.follows_refill
  | parameter p => exact follows_pure _ _
  | block xs | args xs | generics xs =>
      exact follows_bind (follows_takeAll _) fun _ _ => follows_pure _ _
  | _ x =>
      cases x <;> simp only [refill] <;>
        repeat' first
          | exact follows_pure _ _ | exact follows_take | exact follows_takeAll _
          | exact follows_takeIf _ | exact follows_takeEach _ | refine follows_bind ?_ fun _ _ => ?_

theorem exists_refill {n : Node} {cs : List Node} (hk : n.children.map kind = cs.map kind) :
    ∃ n', n.refill cs = some (n', []) := by
  obtain ⟨n', rest, hn', hrest⟩ := n.follows_refill hk n.refill_children
  obtain rfl : rest = [] := by simpa using hrest.symm
  exact ⟨n', hn'⟩

theorem kind_of_refill {n n' : Node} (h : n.refill cs = some (n', rest)) : n'.kind = n.kind := by
  cases n with
  | segment x | tableField x | callHead x | suffix x | typeField x =>
      cases x <;> simp [refill] at h <;> casesm* _ ∧ _, Exists _ <;> subst_vars <;> rfl
  | _ =>
      simp [refill] at h
      casesm* _ ∧ _, Exists _
      subst_vars
      rfl

end Node

end LuauSyntax
