import LuauSyntax.Node

namespace LuauSyntax

inductive Decision (α : Type) where
  | replace (value : α)
  | descend

structure Transform (m : Type → Type) [Monad m] where
  /-- Which statements of a block stay; one that does not is never asked about. -/
  keep : Stmt → Bool := fun _ => true
  stmt : Stmt → m (Decision Stmt) := fun _ => pure .descend
  expr : Expr → m (Decision Expr) := fun _ => pure .descend
  type : Ty → m (Decision Ty) := fun _ => pure .descend
  suffix : Suffix → m (Decision Suffix) := fun _ => pure .descend
  annotation : Ty → m (Decision (Option Ty)) := fun _ => pure .descend
  rebuiltStmt : Stmt → m Stmt := pure
  rebuiltExpr : Expr → m Expr := pure

variable {m : Type → Type} [Monad m]

def Decision.resolve {α : Type} (d : Decision α) (descend : m α) : m α :=
  match d with
  | .replace a => pure a
  | .descend => descend

namespace Transform

variable (f : Transform m)

def atStmt (s : Stmt) (rebuild : m Stmt) : m Stmt := do
  (← f.stmt s).resolve (rebuild >>= f.rebuiltStmt)

def atExpr (e : Expr) (rebuild : m Expr) : m Expr := do
  (← f.expr e).resolve (rebuild >>= f.rebuiltExpr)

def atType (t : Ty) (rebuild : m Ty) : m Ty := do
  (← f.type t).resolve rebuild

def atSuffix (s : Suffix) (rebuild : m Suffix) : m Suffix := do
  (← f.suffix s).resolve rebuild

def atAnnotation (t : Ty) (rebuild : m Ty) : m (Option Ty) := do
  (← f.annotation t).resolve (some <$> rebuild)

end Transform

variable (f : Transform m)

mutual

def Expr.transform : Expr → m Expr
  | .literal v => f.atExpr (.literal v) (pure (.literal v))
  | .symbol n => f.atExpr (.symbol n) (pure (.symbol n))
  | .varArgs => f.atExpr .varArgs (pure .varArgs)
  | .binary a op b =>
      f.atExpr (.binary a op b) do return .binary (← a.transform) op (← b.transform)
  | .unary op e => f.atExpr (.unary op e) do return .unary op (← e.transform)
  | .call c => f.atExpr (.call c) do return .call (← c.transform)
  | .function b => f.atExpr (.function b) do return .function (← b.transform)
  | .table ⟨fs, p⟩ =>
      f.atExpr (.table ⟨fs, p⟩) do return .table ⟨← TableField.transformAll fs, p⟩
  | .interpolated ss =>
      f.atExpr (.interpolated ss) do return .interpolated (← Segment.transformAll ss)
  | .assertion e t =>
      f.atExpr (.assertion e t) do return .assertion (← e.transform) (← t.transform)
  | .ifElse c t bs e =>
      f.atExpr (.ifElse c t bs e) do
        return .ifElse (← c.transform) (← t.transform) (← ElseIfExpr.transformAll bs)
          (← e.transform)
  | .index t k => f.atExpr (.index t k) do return .index (← t.transform) (← k.transform)
  | .paren e => f.atExpr (.paren e) do return .paren (← e.transform)
  | .custom ⟨k, es⟩ => f.atExpr (.custom ⟨k, es⟩) do return .custom ⟨k, ← Expr.transformAll es⟩

def Expr.transformAll : List Expr → m (List Expr)
  | [] => pure []
  | e :: es => return (← e.transform) :: (← Expr.transformAll es)

def Expr.transformOption : Option Expr → m (Option Expr)
  | none => pure none
  | some e => return some (← e.transform)

def Segment.transform : Segment → m Segment
  | .text t => pure (.text t)
  | .expr e => return .expr (← e.transform)

def Segment.transformAll : List Segment → m (List Segment)
  | [] => pure []
  | s :: ss => return (← s.transform) :: (← Segment.transformAll ss)

def ElseIfExpr.transform : ElseIfExpr → m ElseIfExpr
  | ⟨c, v⟩ => return ⟨← c.transform, ← v.transform⟩

def ElseIfExpr.transformAll : List ElseIfExpr → m (List ElseIfExpr)
  | [] => pure []
  | b :: bs => return (← b.transform) :: (← ElseIfExpr.transformAll bs)

def TableField.transform : TableField → m TableField
  | .positional v => return .positional (← v.transform)
  | .named k v => return .named k (← v.transform)
  | .keyed k v => return .keyed (← k.transform) (← v.transform)

def TableField.transformAll : List TableField → m (List TableField)
  | [] => pure []
  | t :: ts => return (← t.transform) :: (← TableField.transformAll ts)

def Call.transform : Call → m Call
  | ⟨h, ss⟩ => return ⟨← h.transform, ← Suffix.transformAll ss⟩

def CallHead.transform : CallHead → m CallHead
  | .name n => pure (.name n)
  | .expr e => return .expr (← e.transform)

def Suffix.transform : Suffix → m Suffix
  | .call as => f.atSuffix (.call as) do return .call (← Expr.transformAll as)
  | .method n as => f.atSuffix (.method n as) do return .method n (← Expr.transformAll as)
  | .dot n => f.atSuffix (.dot n) (pure (.dot n))
  | .brackets k => f.atSuffix (.brackets k) do return .brackets (← k.transform)

def Suffix.transformAll : List Suffix → m (List Suffix)
  | [] => pure []
  | s :: ss => return (← s.transform) :: (← Suffix.transformAll ss)

def FunctionBody.transform : FunctionBody → m FunctionBody
  | ⟨gs, ps, ts, t, b⟩ =>
      return ⟨← GenericParam.transformOption gs, ps, ← Ty.transformAnnotations ts,
        ← Ty.transformOption t, ← Stmt.transformBlock b⟩

def GenericParam.transform : GenericParam → m GenericParam
  | ⟨n, b, d⟩ => return ⟨n, ← Ty.transformOption b, ← Ty.transformOption d⟩

def GenericParam.transformAll : List GenericParam → m (List GenericParam)
  | [] => pure []
  | g :: gs => return (← g.transform) :: (← GenericParam.transformAll gs)

def GenericParam.transformOption : Option (List GenericParam) → m (Option (List GenericParam))
  | none => pure none
  | some gs => return some (← GenericParam.transformAll gs)

def Ty.transform : Ty → m Ty
  | .basic n => f.atType (.basic n) (pure (.basic n))
  | .boolean b => f.atType (.boolean b) (pure (.boolean b))
  | .string s => f.atType (.string s) (pure (.string s))
  | .array t a => f.atType (.array t a) do return .array (← t.transform) a
  | .table fs => f.atType (.table fs) do return .table (← TypeField.transformAll fs)
  | .tuple ts t =>
      f.atType (.tuple ts t) do return .tuple (← Ty.transformAll ts) (← Ty.transformOption t)
  | .union ts => f.atType (.union ts) do return .union (← Ty.transformAll ts)
  | .inter ts => f.atType (.inter ts) do return .inter (← Ty.transformAll ts)
  | .optional t => f.atType (.optional t) do return .optional (← t.transform)
  | .callback gs as t =>
      f.atType (.callback gs as t) do
        return .callback (← GenericParam.transformOption gs) (← TypeArg.transformAll as)
          (← t.transform)
  | .typeof e => f.atType (.typeof e) do return .typeof (← e.transform)
  | .variadic t => f.atType (.variadic t) do return .variadic (← t.transform)
  | .generic b ts => f.atType (.generic b ts) do return .generic b (← Ty.transformAll ts)

def Ty.transformAll : List Ty → m (List Ty)
  | [] => pure []
  | t :: ts => return (← t.transform) :: (← Ty.transformAll ts)

def Ty.transformOption : Option Ty → m (Option Ty)
  | none => pure none
  | some t => return some (← t.transform)

def Ty.transformAnnotation : Option Ty → m (Option Ty)
  | none => pure none
  | some t => f.atAnnotation t t.transform

def Ty.transformAnnotations : List (Option Ty) → m (List (Option Ty))
  | [] => pure []
  | t :: ts => return (← Ty.transformAnnotation t) :: (← Ty.transformAnnotations ts)

def TypeField.transform : TypeField → m TypeField
  | .named a k v => return .named a k (← v.transform)
  | .indexed a k v => return .indexed a (← k.transform) (← v.transform)

def TypeField.transformAll : List TypeField → m (List TypeField)
  | [] => pure []
  | t :: ts => return (← t.transform) :: (← TypeField.transformAll ts)

def TypeArg.transform : TypeArg → m TypeArg
  | ⟨n, t⟩ => return ⟨n, ← t.transform⟩

def TypeArg.transformAll : List TypeArg → m (List TypeArg)
  | [] => pure []
  | a :: as => return (← a.transform) :: (← TypeArg.transformAll as)

def Stmt.transform : Stmt → m Stmt
  | .assign ts op vs =>
      f.atStmt (.assign ts op vs) do
        return .assign (← Expr.transformAll ts) op (← Expr.transformAll vs)
  | .localDecl ns ts vs =>
      f.atStmt (.localDecl ns ts vs) do
        return .localDecl ns (← Ty.transformAnnotations ts) (← Expr.transformAll vs)
  | .function n b => f.atStmt (.function n b) do return .function n (← b.transform)
  | .ifThen c t bs e =>
      f.atStmt (.ifThen c t bs e) do
        return .ifThen (← c.transform) (← Stmt.transformBlock t) (← ElseIf.transformAll bs)
          (← Stmt.transformOption e)
  | .whileDo c b =>
      f.atStmt (.whileDo c b) do return .whileDo (← c.transform) (← Stmt.transformBlock b)
  | .numericFor n a z s b =>
      f.atStmt (.numericFor n a z s b) do
        return .numericFor n (← a.transform) (← z.transform) (← Expr.transformOption s)
          (← Stmt.transformBlock b)
  | .genericFor ns es b =>
      f.atStmt (.genericFor ns es b) do
        return .genericFor ns (← Expr.transformAll es) (← Stmt.transformBlock b)
  | .repeatUntil b c =>
      f.atStmt (.repeatUntil b c) do return .repeatUntil (← Stmt.transformBlock b) (← c.transform)
  | .doBlock b => f.atStmt (.doBlock b) do return .doBlock (← Stmt.transformBlock b)
  | .returns vs => f.atStmt (.returns vs) do return .returns (← Expr.transformAll vs)
  | .breakLoop => f.atStmt .breakLoop (pure .breakLoop)
  | .continueLoop => f.atStmt .continueLoop (pure .continueLoop)
  | .goto l => f.atStmt (.goto l) (pure (.goto l))
  | .label n => f.atStmt (.label n) (pure (.label n))
  | .call c => f.atStmt (.call c) do return .call (← c.transform)
  | .typeDecl x n gs t =>
      f.atStmt (.typeDecl x n gs t) do
        return .typeDecl x n (← GenericParam.transformOption gs) (← t.transform)
  | .comment t => f.atStmt (.comment t) (pure (.comment t))
  | .custom ⟨k, es⟩ => f.atStmt (.custom ⟨k, es⟩) do return .custom ⟨k, ← Expr.transformAll es⟩

def Stmt.transformBlock : List Stmt → m (List Stmt)
  | [] => pure []
  | s :: ss =>
      if f.keep s then return (← s.transform) :: (← Stmt.transformBlock ss)
      else Stmt.transformBlock ss

def Stmt.transformOption : Option (List Stmt) → m (Option (List Stmt))
  | none => pure none
  | some b => return some (← Stmt.transformBlock b)

def ElseIf.transform : ElseIf → m ElseIf
  | ⟨c, b⟩ => return ⟨← c.transform, ← Stmt.transformBlock b⟩

def ElseIf.transformAll : List ElseIf → m (List ElseIf)
  | [] => pure []
  | b :: bs => return (← b.transform) :: (← ElseIf.transformAll bs)

end

def Chunk.transform (c : Chunk) : m Chunk :=
  return ⟨← Stmt.transformBlock f c.block⟩

def Node.transform : Node → m Node
  | .chunk c => .chunk <$> c.transform f
  | .block b => .block <$> Stmt.transformBlock f b
  | .stmt s => .stmt <$> s.transform f
  | .elseIf b => .elseIf <$> b.transform f
  | .expr e => .expr <$> e.transform f
  | .elseIfExpr b => .elseIfExpr <$> b.transform f
  | .segment s => .segment <$> s.transform f
  | .tableField t => .tableField <$> t.transform f
  | .functionBody b => .functionBody <$> b.transform f
  | .call c => .call <$> c.transform f
  | .args as => .args <$> Expr.transformAll f as
  | .callHead h => .callHead <$> h.transform f
  | .suffix s => .suffix <$> s.transform f
  | .parameter p => pure (.parameter p)
  | .generics gs => .generics <$> GenericParam.transformAll f gs
  | .genericParam g => .genericParam <$> g.transform f
  | .type t => .type <$> t.transform f
  | .typeField t => .typeField <$> t.transform f
  | .typeArg a => .typeArg <$> a.transform f

end LuauSyntax
