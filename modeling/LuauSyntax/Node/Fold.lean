import LuauSyntax.Node

namespace LuauSyntax

variable {α : Type} (f : Node → List α → α)

mutual

def Expr.fold : Expr → α
  | .literal v => f (.expr (.literal v)) []
  | .symbol n => f (.expr (.symbol n)) []
  | .varArgs => f (.expr .varArgs) []
  | .binary l op r => f (.expr (.binary l op r)) [l.fold, r.fold]
  | .unary op e => f (.expr (.unary op e)) [e.fold]
  | .call c => f (.expr (.call c)) [c.fold]
  | .function b => f (.expr (.function b)) [b.fold]
  | .table ⟨fs, p⟩ => f (.expr (.table ⟨fs, p⟩)) (TableField.foldAll fs)
  | .interpolated ss => f (.expr (.interpolated ss)) (Segment.foldAll ss)
  | .assertion e t => f (.expr (.assertion e t)) [e.fold, t.fold]
  | .ifElse c t bs e =>
      f (.expr (.ifElse c t bs e)) (c.fold :: t.fold :: ElseIfExpr.foldAll bs ++ [e.fold])
  | .index t k => f (.expr (.index t k)) [t.fold, k.fold]
  | .paren e => f (.expr (.paren e)) [e.fold]
  | .custom ⟨k, es⟩ => f (.expr (.custom ⟨k, es⟩)) (Expr.foldAll es)

def Expr.foldAll : List Expr → List α
  | [] => []
  | e :: es => e.fold :: Expr.foldAll es

def Expr.foldOption : Option Expr → List α
  | none => []
  | some e => [e.fold]

def Segment.fold : Segment → α
  | .text t => f (.segment (.text t)) []
  | .expr e => f (.segment (.expr e)) [e.fold]

def Segment.foldAll : List Segment → List α
  | [] => []
  | s :: ss => s.fold :: Segment.foldAll ss

def ElseIfExpr.fold : ElseIfExpr → α
  | ⟨c, v⟩ => f (.elseIfExpr ⟨c, v⟩) [c.fold, v.fold]

def ElseIfExpr.foldAll : List ElseIfExpr → List α
  | [] => []
  | b :: bs => b.fold :: ElseIfExpr.foldAll bs

def TableField.fold : TableField → α
  | .positional v => f (.tableField (.positional v)) [v.fold]
  | .named k v => f (.tableField (.named k v)) [v.fold]
  | .keyed k v => f (.tableField (.keyed k v)) [k.fold, v.fold]

def TableField.foldAll : List TableField → List α
  | [] => []
  | t :: ts => t.fold :: TableField.foldAll ts

def Call.fold : Call → α
  | ⟨h, ss⟩ => f (.call ⟨h, ss⟩) (h.fold :: Suffix.foldAll ss)

def CallHead.fold : CallHead → α
  | .name n => f (.callHead (.name n)) []
  | .expr e => f (.callHead (.expr e)) [e.fold]

def Suffix.fold : Suffix → α
  | .call as => f (.suffix (.call as)) [f (.args as) (Expr.foldAll as)]
  | .method n as => f (.suffix (.method n as)) [f (.args as) (Expr.foldAll as)]
  | .dot n => f (.suffix (.dot n)) []
  | .brackets k => f (.suffix (.brackets k)) [k.fold]

def Suffix.foldAll : List Suffix → List α
  | [] => []
  | s :: ss => s.fold :: Suffix.foldAll ss

def FunctionBody.fold : FunctionBody → α
  | ⟨gs, ps, ts, r, b⟩ =>
      f (.functionBody ⟨gs, ps, ts, r, b⟩)
        (GenericParam.foldOption gs ++ ps.map (fun p => f (.parameter p) [])
          ++ Ty.foldAnnotations ts ++ Ty.foldOption r ++ [f (.block b) (Stmt.foldAll b)])

def GenericParam.fold : GenericParam → α
  | ⟨n, b, d⟩ => f (.genericParam ⟨n, b, d⟩) (Ty.foldOption b ++ Ty.foldOption d)

def GenericParam.foldAll : List GenericParam → List α
  | [] => []
  | g :: gs => g.fold :: GenericParam.foldAll gs

def GenericParam.foldOption : Option (List GenericParam) → List α
  | none => []
  | some gs => [f (.generics gs) (GenericParam.foldAll gs)]

def Ty.fold : Ty → α
  | .basic n => f (.type (.basic n)) []
  | .boolean b => f (.type (.boolean b)) []
  | .string s => f (.type (.string s)) []
  | .array t a => f (.type (.array t a)) [t.fold]
  | .table fs => f (.type (.table fs)) (TypeField.foldAll fs)
  | .tuple ts r => f (.type (.tuple ts r)) (Ty.foldAll ts ++ Ty.foldOption r)
  | .union ts => f (.type (.union ts)) (Ty.foldAll ts)
  | .inter ts => f (.type (.inter ts)) (Ty.foldAll ts)
  | .optional t => f (.type (.optional t)) [t.fold]
  | .callback gs as t =>
      f (.type (.callback gs as t)) (GenericParam.foldOption gs ++ TypeArg.foldAll as ++ [t.fold])
  | .typeof e => f (.type (.typeof e)) [e.fold]
  | .variadic t => f (.type (.variadic t)) [t.fold]
  | .generic b ts => f (.type (.generic b ts)) (Ty.foldAll ts)

def Ty.foldAll : List Ty → List α
  | [] => []
  | t :: ts => t.fold :: Ty.foldAll ts

def Ty.foldOption : Option Ty → List α
  | none => []
  | some t => [t.fold]

def Ty.foldAnnotations : List (Option Ty) → List α
  | [] => []
  | t :: ts => Ty.foldOption t ++ Ty.foldAnnotations ts

def TypeField.fold : TypeField → α
  | .named a k v => f (.typeField (.named a k v)) [v.fold]
  | .indexed a k v => f (.typeField (.indexed a k v)) [k.fold, v.fold]

def TypeField.foldAll : List TypeField → List α
  | [] => []
  | t :: ts => t.fold :: TypeField.foldAll ts

def TypeArg.fold : TypeArg → α
  | ⟨n, t⟩ => f (.typeArg ⟨n, t⟩) [t.fold]

def TypeArg.foldAll : List TypeArg → List α
  | [] => []
  | a :: as => a.fold :: TypeArg.foldAll as

def Stmt.fold : Stmt → α
  | .assign ts op vs => f (.stmt (.assign ts op vs)) (Expr.foldAll ts ++ Expr.foldAll vs)
  | .localDecl ns ts vs =>
      f (.stmt (.localDecl ns ts vs)) (Ty.foldAnnotations ts ++ Expr.foldAll vs)
  | .function n b => f (.stmt (.function n b)) [b.fold]
  | .ifThen c t bs e =>
      f (.stmt (.ifThen c t bs e))
        (c.fold :: f (.block t) (Stmt.foldAll t) :: ElseIf.foldAll bs ++ Stmt.foldOption e)
  | .whileDo c b => f (.stmt (.whileDo c b)) [c.fold, f (.block b) (Stmt.foldAll b)]
  | .numericFor n a z s b =>
      f (.stmt (.numericFor n a z s b))
        (a.fold :: z.fold :: Expr.foldOption s ++ [f (.block b) (Stmt.foldAll b)])
  | .genericFor ns es b =>
      f (.stmt (.genericFor ns es b)) (Expr.foldAll es ++ [f (.block b) (Stmt.foldAll b)])
  | .repeatUntil b c => f (.stmt (.repeatUntil b c)) [f (.block b) (Stmt.foldAll b), c.fold]
  | .doBlock b => f (.stmt (.doBlock b)) [f (.block b) (Stmt.foldAll b)]
  | .returns vs => f (.stmt (.returns vs)) (Expr.foldAll vs)
  | .breakLoop => f (.stmt .breakLoop) []
  | .continueLoop => f (.stmt .continueLoop) []
  | .goto l => f (.stmt (.goto l)) []
  | .label n => f (.stmt (.label n)) []
  | .call c => f (.stmt (.call c)) [c.fold]
  | .typeDecl x n gs t => f (.stmt (.typeDecl x n gs t)) (GenericParam.foldOption gs ++ [t.fold])
  | .comment t => f (.stmt (.comment t)) []
  | .custom ⟨k, es⟩ => f (.stmt (.custom ⟨k, es⟩)) (Expr.foldAll es)

def Stmt.foldAll : List Stmt → List α
  | [] => []
  | s :: ss => s.fold :: Stmt.foldAll ss

def Stmt.foldOption : Option (List Stmt) → List α
  | none => []
  | some b => [f (.block b) (Stmt.foldAll b)]

def ElseIf.fold : ElseIf → α
  | ⟨c, b⟩ => f (.elseIf ⟨c, b⟩) [c.fold, f (.block b) (Stmt.foldAll b)]

def ElseIf.foldAll : List ElseIf → List α
  | [] => []
  | b :: bs => b.fold :: ElseIf.foldAll bs

end

namespace Node

def fold : Node → α
  | .chunk c => f (.chunk c) [f (.block c.block) (Stmt.foldAll f c.block)]
  | .block b => f (.block b) (Stmt.foldAll f b)
  | .stmt s => s.fold f
  | .elseIf b => b.fold f
  | .expr e => e.fold f
  | .elseIfExpr b => b.fold f
  | .segment s => s.fold f
  | .tableField t => t.fold f
  | .functionBody b => b.fold f
  | .call c => c.fold f
  | .args as => f (.args as) (Expr.foldAll f as)
  | .callHead h => h.fold f
  | .suffix s => s.fold f
  | .parameter p => f (.parameter p) []
  | .generics gs => f (.generics gs) (GenericParam.foldAll f gs)
  | .genericParam g => g.fold f
  | .type t => t.fold f
  | .typeField t => t.fold f
  | .typeArg a => a.fold f

def size : Node → Nat :=
  fold fun _ sizes => 1 + sizes.foldr (· + ·) 0

def preorder : Node → List Node :=
  fold fun n below => n :: below.flatten

end Node

inductive Outline where
  | node (kind : String) (children : List Outline)

def Node.outline : Node → Outline :=
  fold fun n below => .node n.kindName below

end LuauSyntax
