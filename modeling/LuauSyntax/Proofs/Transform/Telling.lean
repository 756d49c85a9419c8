import LuauSyntax.Proofs.Node.Induction
import LuauSyntax.Transform

namespace LuauSyntax

namespace Node

def isPhrase : Node → Bool
  | .stmt _ | .expr _ | .type _ => true
  | _ => false

def phrasesAt (n : Node) (below : List (List Node)) : List Node :=
  if n.isPhrase then n :: below.flatten else below.flatten

theorem fold_phrasesAt (n : Node) : n.fold phrasesAt = n.preorder.filter isPhrase := by
  induction n using Node.inductionOn with
  | step n ih =>
      have hbelow : (n.children.map (fold phrasesAt)).flatten =
          (n.children.flatMap preorder).filter isPhrase := by
        rw [List.filter_flatMap, ← List.flatMap_def]
        exact List.flatMap_congr ih
      rw [fold_eq, preorder_eq, List.filter_cons, ← hbelow]
      rfl

end Node

open Node (phrasesAt)

variable {m : Type → Type} [Monad m]

namespace Transform

def telling (tell : Node → m PUnit) : Transform m where
  stmt s := do tell (.stmt s); return .descend
  expr e := do tell (.expr e); return .descend
  type t := do tell (.type t); return .descend

def told (tell : Node → m PUnit) {α : Type} (ns : List Node) (a : α) : m α := do
  ns.forM tell
  return a

@[simp]
theorem keep_telling (tell : Node → m PUnit) (s : Stmt) : (telling tell).keep s = true := rfl

variable [LawfulMonad m] (tell : Node → m PUnit)

@[simp]
theorem atStmt_telling (s : Stmt) (x : m Stmt) :
    (telling tell).atStmt s x = (do tell (.stmt s); x) := by
  simp [atStmt, telling, Decision.resolve]

@[simp]
theorem atExpr_telling (e : Expr) (x : m Expr) :
    (telling tell).atExpr e x = (do tell (.expr e); x) := by
  simp [atExpr, telling, Decision.resolve]

@[simp]
theorem atType_telling (t : Ty) (x : m Ty) :
    (telling tell).atType t x = (do tell (.type t); x) := by
  simp [atType, telling, Decision.resolve]

@[simp]
theorem atSuffix_telling (s : Suffix) (x : m Suffix) : (telling tell).atSuffix s x = x := by
  simp [atSuffix, telling, Decision.resolve]

@[simp]
theorem atAnnotation_telling (t : Ty) (x : m Ty) :
    atAnnotation (telling tell) t x = some <$> x := by
  simp [telling, Decision.resolve, atAnnotation]

variable {α β : Type} (ns ms : List Node) (a : α)

@[simp]
theorem told_nil : told tell [] a = pure a := by
  simp [told]

@[simp]
theorem map_told (f : α → β) : f <$> told tell ns a = told tell ns (f a) := by
  simp [told]

@[simp]
theorem map_tell (n : Node) : (fun _ => a) <$> tell n = told tell [n] a := by
  simp [told]

@[simp]
theorem tell_bind_told (n : Node) :
    (tell n >>= fun _ => told tell ns a) = told tell (n :: ns) a := by
  simp [told]

@[simp]
theorem told_bind_told (b : α → β) :
    (told tell ns a >>= fun x => told tell ms (b x)) = told tell (ns ++ ms) (b a) := by
  simp [told]

end Transform

open Transform (told)

variable [LawfulMonad m] (tell : Node → m PUnit)

attribute [local simp] phrasesAt Node.isPhrase
  Expr.transform Expr.transformAll Expr.transformOption Expr.fold Expr.foldAll Expr.foldOption
  Segment.transform Segment.transformAll Segment.fold Segment.foldAll ElseIfExpr.transform
  ElseIfExpr.transformAll ElseIfExpr.fold ElseIfExpr.foldAll TableField.transform
  TableField.transformAll TableField.fold TableField.foldAll Call.transform Call.fold
  CallHead.transform CallHead.fold Suffix.transform Suffix.transformAll Suffix.fold
  Suffix.foldAll FunctionBody.transform FunctionBody.fold GenericParam.transform
  GenericParam.transformAll GenericParam.transformOption GenericParam.fold GenericParam.foldAll
  GenericParam.foldOption Ty.transform Ty.transformAll Ty.transformOption Ty.transformAnnotation
  Ty.transformAnnotations Ty.fold Ty.foldAll Ty.foldOption Ty.foldAnnotations TypeField.transform
  TypeField.transformAll TypeField.fold TypeField.foldAll TypeArg.transform TypeArg.transformAll
  TypeArg.fold TypeArg.foldAll Stmt.transform Stmt.transformBlock Stmt.transformOption Stmt.fold
  Stmt.foldAll Stmt.foldOption ElseIf.transform ElseIf.transformAll ElseIf.fold ElseIf.foldAll

-- A transform and a fold recurse in the same way, so the two are opened side by side: one case per
-- constructor, with the told lists of the parts put together in the order of the fields.

mutual

theorem Expr.transform_telling (e : Expr) :
    e.transform (.telling tell) = told tell (e.fold phrasesAt) e := by
  cases e with
  | literal | symbol | varArgs => simp
  | binary l op r => simp [l.transform_telling, r.transform_telling]
  | unary op e => simp [e.transform_telling]
  | call c => simp [c.transform_telling]
  | function b => simp [b.transform_telling]
  | table t =>
      obtain ⟨fs, p⟩ := t
      simp [TableField.transformAll_telling fs]
  | interpolated ss => simp [Segment.transformAll_telling ss]
  | assertion e t => simp [e.transform_telling, t.transform_telling]
  | ifElse c t bs e =>
      simp [c.transform_telling, t.transform_telling, ElseIfExpr.transformAll_telling bs,
        e.transform_telling]
  | index t k => simp [t.transform_telling, k.transform_telling]
  | paren e => simp [e.transform_telling]
  | custom n =>
      obtain ⟨k, es⟩ := n
      simp [Expr.transformAll_telling es]

theorem Expr.transformAll_telling (es : List Expr) : Expr.transformAll (.telling tell) es =
    told tell (Expr.foldAll phrasesAt es).flatten es := by
  cases es with
  | nil => simp
  | cons e es => simp [e.transform_telling, Expr.transformAll_telling es]

theorem Expr.transformOption_telling (e : Option Expr) : Expr.transformOption (.telling tell) e =
    told tell (Expr.foldOption phrasesAt e).flatten e := by
  cases e with
  | none => simp
  | some e => simp [e.transform_telling]

theorem Segment.transform_telling (s : Segment) :
    s.transform (.telling tell) = told tell (s.fold phrasesAt) s := by
  cases s with
  | text t => simp
  | expr e => simp [e.transform_telling]

theorem Segment.transformAll_telling (ss : List Segment) :
    Segment.transformAll (.telling tell) ss =
      told tell (Segment.foldAll phrasesAt ss).flatten ss := by
  cases ss with
  | nil => simp
  | cons s ss => simp [s.transform_telling, Segment.transformAll_telling ss]

theorem ElseIfExpr.transform_telling (b : ElseIfExpr) :
    b.transform (.telling tell) = told tell (b.fold phrasesAt) b := by
  obtain ⟨c, v⟩ := b
  simp [c.transform_telling, v.transform_telling]

theorem ElseIfExpr.transformAll_telling (bs : List ElseIfExpr) :
    ElseIfExpr.transformAll (.telling tell) bs =
      told tell (ElseIfExpr.foldAll phrasesAt bs).flatten bs := by
  cases bs with
  | nil => simp
  | cons b bs => simp [b.transform_telling, ElseIfExpr.transformAll_telling bs]

theorem TableField.transform_telling (t : TableField) :
    t.transform (.telling tell) = told tell (t.fold phrasesAt) t := by
  cases t with
  | positional v => simp [v.transform_telling]
  | named k v => simp [v.transform_telling]
  | keyed k v => simp [k.transform_telling, v.transform_telling]

theorem TableField.transformAll_telling (ts : List TableField) :
    TableField.transformAll (.telling tell) ts =
      told tell (TableField.foldAll phrasesAt ts).flatten ts := by
  cases ts with
  | nil => simp
  | cons t ts => simp [t.transform_telling, TableField.transformAll_telling ts]

theorem Call.transform_telling (c : Call) :
    c.transform (.telling tell) = told tell (c.fold phrasesAt) c := by
  obtain ⟨h, ss⟩ := c
  simp [h.transform_telling, Suffix.transformAll_telling ss]

theorem CallHead.transform_telling (h : CallHead) :
    h.transform (.telling tell) = told tell (h.fold phrasesAt) h := by
  cases h with
  | name n => simp
  | expr e => simp [e.transform_telling]

theorem Suffix.transform_telling (s : Suffix) :
    s.transform (.telling tell) = told tell (s.fold phrasesAt) s := by
  cases s with
  | call as => simp [Expr.transformAll_telling as]
  | method n as => simp [Expr.transformAll_telling as]
  | dot n => simp
  | brackets k => simp [k.transform_telling]

theorem Suffix.transformAll_telling (ss : List Suffix) :
    Suffix.transformAll (.telling tell) ss =
      told tell (Suffix.foldAll phrasesAt ss).flatten ss := by
  cases ss with
  | nil => simp
  | cons s ss => simp [s.transform_telling, Suffix.transformAll_telling ss]

theorem FunctionBody.transform_telling (b : FunctionBody) :
    b.transform (.telling tell) = told tell (b.fold phrasesAt) b := by
  obtain ⟨gs, ps, ts, t, b⟩ := b
  simp [GenericParam.transformOption_telling gs, Ty.transformAnnotations_telling ts,
    Ty.transformOption_telling t, Stmt.transformBlock_telling b]

theorem GenericParam.transform_telling (g : GenericParam) :
    g.transform (.telling tell) = told tell (g.fold phrasesAt) g := by
  obtain ⟨n, b, d⟩ := g
  simp [Ty.transformOption_telling b, Ty.transformOption_telling d]

theorem GenericParam.transformAll_telling (gs : List GenericParam) :
    GenericParam.transformAll (.telling tell) gs =
      told tell (GenericParam.foldAll phrasesAt gs).flatten gs := by
  cases gs with
  | nil => simp
  | cons g gs => simp [g.transform_telling, GenericParam.transformAll_telling gs]

theorem GenericParam.transformOption_telling (gs : Option (List GenericParam)) :
    GenericParam.transformOption (.telling tell) gs =
      told tell (GenericParam.foldOption phrasesAt gs).flatten gs := by
  cases gs with
  | none => simp
  | some gs => simp [GenericParam.transformAll_telling gs]

theorem Ty.transform_telling (t : Ty) :
    t.transform (.telling tell) = told tell (t.fold phrasesAt) t := by
  cases t with
  | basic | boolean | string => simp
  | array t a => simp [t.transform_telling]
  | table fs => simp [TypeField.transformAll_telling fs]
  | tuple ts t => simp [Ty.transformAll_telling ts, Ty.transformOption_telling t]
  | union ts => simp [Ty.transformAll_telling ts]
  | inter ts => simp [Ty.transformAll_telling ts]
  | optional t => simp [t.transform_telling]
  | callback gs as t =>
      simp [GenericParam.transformOption_telling gs, TypeArg.transformAll_telling as,
        t.transform_telling]
  | typeof e => simp [e.transform_telling]
  | variadic t => simp [t.transform_telling]
  | generic b ts => simp [Ty.transformAll_telling ts]

theorem Ty.transformAll_telling (ts : List Ty) : Ty.transformAll (.telling tell) ts =
    told tell (Ty.foldAll phrasesAt ts).flatten ts := by
  cases ts with
  | nil => simp
  | cons t ts => simp [t.transform_telling, Ty.transformAll_telling ts]

theorem Ty.transformOption_telling (t : Option Ty) : Ty.transformOption (.telling tell) t =
    told tell (Ty.foldOption phrasesAt t).flatten t := by
  cases t with
  | none => simp
  | some t => simp [t.transform_telling]

theorem Ty.transformAnnotation_telling (t : Option Ty) :
    Ty.transformAnnotation (.telling tell) t =
      told tell (Ty.foldOption phrasesAt t).flatten t := by
  cases t with
  | none => simp
  | some t => simp [t.transform_telling]

theorem Ty.transformAnnotations_telling (ts : List (Option Ty)) :
    Ty.transformAnnotations (.telling tell) ts =
      told tell (Ty.foldAnnotations phrasesAt ts).flatten ts := by
  cases ts with
  | nil => simp
  | cons t ts => simp [Ty.transformAnnotation_telling t, Ty.transformAnnotations_telling ts]

theorem TypeField.transform_telling (t : TypeField) :
    t.transform (.telling tell) = told tell (t.fold phrasesAt) t := by
  cases t with
  | named a k v => simp [v.transform_telling]
  | indexed a k v => simp [k.transform_telling, v.transform_telling]

theorem TypeField.transformAll_telling (ts : List TypeField) :
    TypeField.transformAll (.telling tell) ts =
      told tell (TypeField.foldAll phrasesAt ts).flatten ts := by
  cases ts with
  | nil => simp
  | cons t ts => simp [t.transform_telling, TypeField.transformAll_telling ts]

theorem TypeArg.transform_telling (a : TypeArg) :
    a.transform (.telling tell) = told tell (a.fold phrasesAt) a := by
  obtain ⟨n, t⟩ := a
  simp [t.transform_telling]

theorem TypeArg.transformAll_telling (as : List TypeArg) :
    TypeArg.transformAll (.telling tell) as =
      told tell (TypeArg.foldAll phrasesAt as).flatten as := by
  cases as with
  | nil => simp
  | cons a as => simp [a.transform_telling, TypeArg.transformAll_telling as]

theorem Stmt.transform_telling (s : Stmt) :
    s.transform (.telling tell) = told tell (s.fold phrasesAt) s := by
  cases s with
  | assign ts op vs => simp [Expr.transformAll_telling ts, Expr.transformAll_telling vs]
  | localDecl ns ts vs => simp [Ty.transformAnnotations_telling ts, Expr.transformAll_telling vs]
  | function n b => simp [b.transform_telling]
  | ifThen c t bs e =>
      simp [c.transform_telling, Stmt.transformBlock_telling t, ElseIf.transformAll_telling bs,
        Stmt.transformOption_telling e]
  | whileDo c b => simp [c.transform_telling, Stmt.transformBlock_telling b]
  | numericFor n a z s b =>
      simp [a.transform_telling, z.transform_telling, Expr.transformOption_telling s,
        Stmt.transformBlock_telling b]
  | genericFor ns es b => simp [Expr.transformAll_telling es, Stmt.transformBlock_telling b]
  | repeatUntil b c => simp [Stmt.transformBlock_telling b, c.transform_telling]
  | doBlock b => simp [Stmt.transformBlock_telling b]
  | returns vs => simp [Expr.transformAll_telling vs]
  | call c => simp [c.transform_telling]
  | typeDecl x n gs t => simp [GenericParam.transformOption_telling gs, t.transform_telling]
  | breakLoop | continueLoop | goto | label | comment => simp
  | custom n =>
      obtain ⟨k, es⟩ := n
      simp [Expr.transformAll_telling es]

theorem Stmt.transformBlock_telling (b : List Stmt) : Stmt.transformBlock (.telling tell) b =
    told tell (Stmt.foldAll phrasesAt b).flatten b := by
  cases b with
  | nil => simp
  | cons s ss => simp [s.transform_telling, Stmt.transformBlock_telling ss]

theorem Stmt.transformOption_telling (b : Option (List Stmt)) :
    Stmt.transformOption (.telling tell) b =
      told tell (Stmt.foldOption phrasesAt b).flatten b := by
  cases b with
  | none => simp
  | some b => simp [Stmt.transformBlock_telling b]

theorem ElseIf.transform_telling (b : ElseIf) :
    b.transform (.telling tell) = told tell (b.fold phrasesAt) b := by
  obtain ⟨c, b⟩ := b
  simp [c.transform_telling, Stmt.transformBlock_telling b]

theorem ElseIf.transformAll_telling (bs : List ElseIf) :
    ElseIf.transformAll (.telling tell) bs =
      told tell (ElseIf.foldAll phrasesAt bs).flatten bs := by
  cases bs with
  | nil => simp
  | cons b bs => simp [b.transform_telling, ElseIf.transformAll_telling bs]

end

theorem Node.transform_telling (n : Node) :
    n.transform (.telling tell) = told tell (n.preorder.filter isPhrase) n := by
  rw [← fold_phrasesAt]
  cases n <;>
    simp [Node.transform, Node.fold, Chunk.transform, Stmt.transformBlock_telling,
      Expr.transformAll_telling, GenericParam.transformAll_telling, Stmt.transform_telling,
      ElseIf.transform_telling, Expr.transform_telling, ElseIfExpr.transform_telling,
      Segment.transform_telling, TableField.transform_telling, FunctionBody.transform_telling,
      Call.transform_telling, CallHead.transform_telling, Suffix.transform_telling,
      GenericParam.transform_telling, Ty.transform_telling, TypeField.transform_telling,
      TypeArg.transform_telling]

end LuauSyntax
