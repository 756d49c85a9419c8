import LuauSyntax.Equality
import LuauSyntax.Proofs.Node.Refill
import Mathlib.Data.List.Forall2

namespace LuauSyntax

namespace Node

def Equal (n n' : Node) : Prop := n.equals n'

@[simp]
theorem equal_block {b b' : Block} : Equal (.block b) (.block b') ↔ Stmt.equalAll b b' :=
  .rfl

@[simp]
theorem equal_expr {e e' : Expr} : Equal (.expr e) (.expr e') ↔ e.equals e' :=
  .rfl

@[simp]
theorem equal_functionBody {b b' : FunctionBody} :
    Equal (.functionBody b) (.functionBody b') ↔ b.equals b' :=
  .rfl

@[simp]
theorem equal_call {c c' : Call} : Equal (.call c) (.call c') ↔ c.equals c' :=
  .rfl

@[simp]
theorem equal_args {as as' : List Expr} : Equal (.args as) (.args as') ↔ Expr.equalAll as as' :=
  .rfl

@[simp]
theorem equal_callHead {h h' : CallHead} : Equal (.callHead h) (.callHead h') ↔ h.equals h' :=
  .rfl

@[simp]
theorem equal_generics {gs gs' : Generics} :
    Equal (.generics gs) (.generics gs') ↔ GenericParam.equalAll gs gs' :=
  .rfl

@[simp]
theorem equal_type {t t' : Ty} : Equal (.type t) (.type t') ↔ t.equals t' :=
  .rfl

end Node

open Node (Equal ofExprs ofTypes ofAnnotations ofGenerics ofType?)

theorem equalAll_iff_forall₂ {α : Type} {node : α → Node} {all : List α → List α → Bool}
    (hnil : ∀ as', all [] as' = as'.isEmpty) (hend : ∀ a as, all (a :: as) [] = false)
    (hcons : ∀ a as a' as', all (a :: as) (a' :: as') = ((node a).equals (node a') && all as as'))
    {as as' : List α} :
    all as as' ↔ as.length = as'.length ∧ List.Forall₂ Equal (as.map node) (as'.map node) := by
  induction as generalizing as' with
  | nil => cases as' <;> simp [hnil]
  | cons a as ih =>
      cases as' with
      | nil => simp [hend]
      | cons a' as' => simp [hcons, ih, Equal, and_left_comm]

theorem Expr.equalAll_iff {es es' : List Expr} :
    Expr.equalAll es es' ↔
      es.length = es'.length ∧ List.Forall₂ Equal (ofExprs es) (ofExprs es') :=
  equalAll_iff_forall₂ (fun _ => rfl) (fun _ _ => rfl) fun _ _ _ _ => rfl

theorem Segment.equalAll_iff {ss ss' : List Segment} :
    Segment.equalAll ss ss' ↔
      ss.length = ss'.length ∧ List.Forall₂ Equal (ss.map .segment) (ss'.map .segment) :=
  equalAll_iff_forall₂ (fun _ => rfl) (fun _ _ => rfl) fun _ _ _ _ => rfl

theorem ElseIfExpr.equalAll_iff {bs bs' : List ElseIfExpr} :
    ElseIfExpr.equalAll bs bs' ↔
      bs.length = bs'.length ∧ List.Forall₂ Equal (bs.map .elseIfExpr) (bs'.map .elseIfExpr) :=
  equalAll_iff_forall₂ (fun _ => rfl) (fun _ _ => rfl) fun _ _ _ _ => rfl

theorem TableField.equalAll_iff {ts ts' : List TableField} :
    TableField.equalAll ts ts' ↔
      ts.length = ts'.length ∧ List.Forall₂ Equal (ts.map .tableField) (ts'.map .tableField) :=
  equalAll_iff_forall₂ (fun _ => rfl) (fun _ _ => rfl) fun _ _ _ _ => rfl

theorem Suffix.equalAll_iff {ss ss' : List Suffix} :
    Suffix.equalAll ss ss' ↔
      ss.length = ss'.length ∧ List.Forall₂ Equal (ss.map .suffix) (ss'.map .suffix) :=
  equalAll_iff_forall₂ (fun _ => rfl) (fun _ _ => rfl) fun _ _ _ _ => rfl

theorem GenericParam.equalAll_iff {gs gs' : Generics} :
    GenericParam.equalAll gs gs' ↔
      gs.length = gs'.length ∧
        List.Forall₂ Equal (gs.map .genericParam) (gs'.map .genericParam) :=
  equalAll_iff_forall₂ (fun _ => rfl) (fun _ _ => rfl) fun _ _ _ _ => rfl

theorem Ty.equalAll_iff {ts ts' : List Ty} :
    Ty.equalAll ts ts' ↔
      ts.length = ts'.length ∧ List.Forall₂ Equal (ofTypes ts) (ofTypes ts') :=
  equalAll_iff_forall₂ (fun _ => rfl) (fun _ _ => rfl) fun _ _ _ _ => rfl

theorem TypeField.equalAll_iff {ts ts' : List TypeField} :
    TypeField.equalAll ts ts' ↔
      ts.length = ts'.length ∧ List.Forall₂ Equal (ts.map .typeField) (ts'.map .typeField) :=
  equalAll_iff_forall₂ (fun _ => rfl) (fun _ _ => rfl) fun _ _ _ _ => rfl

theorem TypeArg.equalAll_iff {as as' : List TypeArg} :
    TypeArg.equalAll as as' ↔
      as.length = as'.length ∧ List.Forall₂ Equal (as.map .typeArg) (as'.map .typeArg) :=
  equalAll_iff_forall₂ (fun _ => rfl) (fun _ _ => rfl) fun _ _ _ _ => rfl

theorem Stmt.equalAll_iff {b b' : Block} :
    Stmt.equalAll b b' ↔
      b.length = b'.length ∧ List.Forall₂ Equal (b.map .stmt) (b'.map .stmt) :=
  equalAll_iff_forall₂ (fun _ => rfl) (fun _ _ => rfl) fun _ _ _ _ => rfl

theorem ElseIf.equalAll_iff {bs bs' : List ElseIf} :
    ElseIf.equalAll bs bs' ↔
      bs.length = bs'.length ∧ List.Forall₂ Equal (bs.map .elseIf) (bs'.map .elseIf) :=
  equalAll_iff_forall₂ (fun _ => rfl) (fun _ _ => rfl) fun _ _ _ _ => rfl

theorem Expr.equalOption_iff {e e' : Option Expr} :
    Expr.equalOption e e' ↔
      e.isSome = e'.isSome ∧ List.Forall₂ Equal (ofExprs e.toList) (ofExprs e'.toList) := by
  cases e <;> cases e' <;> simp [Expr.equalOption, ofExprs]

theorem Ty.equalOption_iff {t t' : Option Ty} :
    Ty.equalOption t t' ↔
      t.isSome = t'.isSome ∧ List.Forall₂ Equal (ofType? t) (ofType? t') := by
  cases t <;> cases t' <;> simp [Ty.equalOption, ofType?]

theorem Stmt.equalOption_iff {b b' : Option Block} :
    Stmt.equalOption b b' ↔
      b.isSome = b'.isSome ∧ List.Forall₂ Equal (b.toList.map .block) (b'.toList.map .block) := by
  cases b <;> cases b' <;> simp [Stmt.equalOption]

theorem GenericParam.equalOption_iff {gs gs' : Option Generics} :
    GenericParam.equalOption gs gs' ↔
      gs.isSome = gs'.isSome ∧ List.Forall₂ Equal (ofGenerics gs) (ofGenerics gs') := by
  cases gs <;> cases gs' <;> simp [GenericParam.equalOption, ofGenerics]

theorem Ty.equalAnnotations_iff {ts ts' : Annotations} :
    Ty.equalAnnotations ts ts' ↔
      ts.map Option.isSome = ts'.map Option.isSome ∧
        List.Forall₂ Equal (ofAnnotations ts) (ofAnnotations ts') := by
  induction ts generalizing ts' with
  | nil => cases ts' <;> simp [Ty.equalAnnotations, ofAnnotations]
  | cons t ts ih =>
      cases ts' with
      | nil => simp [Ty.equalAnnotations]
      | cons t' ts' =>
          cases t <;> cases t' <;>
            simp [Ty.equalAnnotations, Ty.equalOption, ih, ofAnnotations, and_left_comm]

theorem Table.equals_iff {t t' : Table} :
    t.equals t' ↔ TableField.equalAll t.fields t'.fields ∧ t.padded = t'.padded := by
  cases t
  cases t'
  simp [Table.equals]

theorem Custom.equals_iff {n n' : Custom} :
    n.equals n' ↔ n.kind = n'.kind ∧ Expr.equalAll n.children n'.children := by
  cases n
  cases n'
  simp [Custom.equals]

theorem Expr.refill_eq_of_equals {e e' : Expr} (h : e.equals e') :
    (∃ x y : Number, e = .literal (.number x) ∧ e' = .literal (.number y) ∧ x.equals y) ∨
      e.refill = e'.refill ∧ List.Forall₂ Equal e.children e'.children := by
  cases e with
  | literal v =>
      cases e' with
      | literal v' =>
          cases v <;> cases v' <;>
            simp_all [Expr.equals, Literal.equals, Expr.refill, Expr.children]
      | _ => contradiction
  | ifElse c t bs e =>
      right
      cases e' <;> try contradiction
      simp only [Expr.equals, Bool.and_eq_true, ElseIfExpr.equalAll_iff] at h
      obtain ⟨⟨⟨hc, ht⟩, hlength, hbs⟩, he⟩ := h
      exact ⟨by simp [Expr.refill, hlength],
        .cons hc (.cons ht (List.rel_append hbs (.cons he .nil)))⟩
  | _ =>
      right
      cases e' <;> try contradiction
      all_goals
        simp only [Expr.equals, Bool.and_eq_true, beq_iff_eq, Table.equals_iff, Custom.equals_iff,
          Expr.equalAll_iff, TableField.equalAll_iff, Segment.equalAll_iff] at h
        simp [Expr.refill, Expr.children, h]

theorem Ty.refill_eq_of_equals {t t' : Ty} (h : t.equals t') :
    t.refill = t'.refill ∧ List.Forall₂ Equal t.children t'.children := by
  cases t <;> cases t' <;> try contradiction
  all_goals
    simp only [Ty.equals, Bool.and_eq_true, beq_iff_eq, Ty.equalAll_iff, TypeField.equalAll_iff,
      TypeArg.equalAll_iff, Ty.equalOption_iff, GenericParam.equalOption_iff] at h
  case tuple.tuple =>
    obtain ⟨⟨hlength, hts⟩, hsome, hr⟩ := h
    exact ⟨by simp [Ty.refill, hlength, hsome], List.rel_append hts hr⟩
  case callback.callback =>
    obtain ⟨⟨⟨hsome, hgs⟩, hlength, has⟩, ht⟩ := h
    exact ⟨by simp [Ty.refill, hsome, hlength],
      List.rel_append (List.rel_append hgs has) (.cons ht .nil)⟩
  all_goals simp [Ty.refill, Ty.children, h]

theorem Stmt.refill_eq_of_equals {s s' : Stmt} (h : s.equals s') :
    s.refill = s'.refill ∧ List.Forall₂ Equal s.children s'.children := by
  cases s <;> cases s' <;> try contradiction
  all_goals
    simp only [Stmt.equals, Bool.and_eq_true, beq_iff_eq, Custom.equals_iff, Expr.equalAll_iff,
      Expr.equalOption_iff, Ty.equalAnnotations_iff, Stmt.equalOption_iff, ElseIf.equalAll_iff,
      GenericParam.equalOption_iff] at h
  case assign.assign =>
    obtain ⟨⟨⟨hlength, hts⟩, hop⟩, hlength', hvs⟩ := h
    exact ⟨by simp [Stmt.refill, hlength, hop, hlength'], List.rel_append hts hvs⟩
  case localDecl.localDecl =>
    obtain ⟨⟨hns, hsome, hts⟩, hlength, hvs⟩ := h
    exact ⟨by simp [Stmt.refill, hns, hsome, hlength], List.rel_append hts hvs⟩
  case ifThen.ifThen =>
    obtain ⟨⟨⟨hc, ht⟩, hlength, hbs⟩, hsome, he⟩ := h
    exact ⟨by simp [Stmt.refill, hlength, hsome],
      .cons hc (.cons ht (List.rel_append hbs he))⟩
  case numericFor.numericFor =>
    obtain ⟨⟨⟨⟨hn, ha⟩, hz⟩, hsome, hs⟩, hb⟩ := h
    exact ⟨by simp [Stmt.refill, hn, hsome],
      .cons ha (.cons hz (List.rel_append hs (.cons hb .nil)))⟩
  case genericFor.genericFor =>
    obtain ⟨⟨hns, hlength, hes⟩, hb⟩ := h
    exact ⟨by simp [Stmt.refill, hns, hlength], List.rel_append hes (.cons hb .nil)⟩
  case typeDecl.typeDecl =>
    obtain ⟨⟨⟨hx, hn⟩, hsome, hgs⟩, ht⟩ := h
    exact ⟨by simp [Stmt.refill, hx, hn, hsome], List.rel_append hgs (.cons ht .nil)⟩
  all_goals simp [Stmt.refill, Stmt.children, h]

theorem FunctionBody.refill_eq_of_equals {b b' : FunctionBody} (h : b.equals b') :
    (Node.functionBody b).refill = (Node.functionBody b').refill ∧
      List.Forall₂ Equal b.children b'.children := by
  obtain ⟨gs, ps, ts, r, body⟩ := b
  obtain ⟨gs', ps', ts', r', body'⟩ := b'
  simp only [FunctionBody.equals, Bool.and_eq_true, beq_iff_eq, GenericParam.equalOption_iff,
    Ty.equalAnnotations_iff, Ty.equalOption_iff] at h
  obtain ⟨⟨⟨⟨⟨hgs, hgs'⟩, rfl⟩, hts, hts'⟩, hr, hr'⟩, hbody⟩ := h
  have hps : List.Forall₂ Equal (ps.map .parameter) (ps.map .parameter) := by
    simp [Equal, Node.equals]
  constructor
  · simp [Node.refill, hgs, hts, hr]
  · exact List.rel_append (List.rel_append (List.rel_append (List.rel_append hgs' hps) hts') hr')
      (.cons hbody .nil)

theorem Node.refill_eq_of_equals {n n' : Node} (h : n.Equal n') :
    (∃ x y : Number, n = .expr (.literal (.number x)) ∧ n' = .expr (.literal (.number y)) ∧
        x.equals y) ∨
      n.refill = n'.refill ∧ List.Forall₂ Equal n.children n'.children := by
  cases n with
  | expr e =>
      cases n' with
      | expr e' =>
          rcases Expr.refill_eq_of_equals h with ⟨x, y, rfl, rfl, hxy⟩ | ⟨hr, hc⟩
          · exact .inl ⟨x, y, rfl, rfl, hxy⟩
          · exact .inr ⟨congrArg (Node.expr <$> ·) hr, hc⟩
      | _ => contradiction
  | stmt s =>
      cases n' with
      | stmt s' =>
          obtain ⟨hr, hc⟩ := Stmt.refill_eq_of_equals h
          exact .inr ⟨congrArg (Node.stmt <$> ·) hr, hc⟩
      | _ => contradiction
  | type t =>
      cases n' with
      | type t' =>
          obtain ⟨hr, hc⟩ := Ty.refill_eq_of_equals h
          exact .inr ⟨congrArg (Node.type <$> ·) hr, hc⟩
      | _ => contradiction
  | functionBody b =>
      cases n' with
      | functionBody b' => exact .inr (FunctionBody.refill_eq_of_equals h)
      | _ => contradiction
  | block x | args x | parameter x | generics x =>
      right
      cases n' <;> try contradiction
      simp only [Equal, Node.equals, Expr.equalAll_iff, GenericParam.equalAll_iff,
        Stmt.equalAll_iff, beq_iff_eq] at h
      simp [refill, children, h]
  | segment x | tableField x | callHead x | suffix x | typeField x =>
      right
      cases n' <;> try contradiction
      rename_i x'
      cases x <;> cases x' <;> try contradiction
      all_goals
        simp only [Equal, Node.equals, Segment.equals, TableField.equals, CallHead.equals,
          Suffix.equals, TypeField.equals, Bool.and_eq_true, beq_iff_eq] at h
        simp [refill, children, Segment.children, TableField.children, CallHead.children,
          Suffix.children, TypeField.children, h]
  | genericParam g =>
      right
      cases n' <;> try contradiction
      rename_i g'
      obtain ⟨n, b, d⟩ := g
      obtain ⟨n', b', d'⟩ := g'
      simp only [Equal, Node.equals, GenericParam.equals, Bool.and_eq_true, beq_iff_eq,
        Ty.equalOption_iff] at h
      obtain ⟨⟨hn, hb, hbound⟩, hd, hdefault⟩ := h
      exact ⟨by simp [refill, hn, hb, hd], List.rel_append hbound hdefault⟩
  | chunk x | elseIf x | elseIfExpr x | call x | typeArg x =>
      right
      cases n' <;> try contradiction
      rename_i x'
      cases x
      cases x'
      simp only [Equal, Node.equals, Chunk.equals, ElseIf.equals, ElseIfExpr.equals, Call.equals,
        TypeArg.equals, Bool.and_eq_true, beq_iff_eq, Suffix.equalAll_iff] at h
      simp [refill, children, ElseIf.children, ElseIfExpr.children, Call.children,
        TypeArg.children, h]

end LuauSyntax
