import LuauSyntax.Node

namespace LuauSyntax

def Literal.equals : Literal → Literal → Bool
  | .nil => fun
    | .nil => true
    | _ => false
  | .boolean a => fun
    | .boolean b => a == b
    | _ => false
  | .number a => fun
    | .number b => a.equals b
    | _ => false
  | .string a => fun
    | .string b => a == b
    | _ => false

mutual

def Expr.equals : Expr → Expr → Bool
  | .literal a => fun
    | .literal b => a.equals b
    | _ => false
  | .symbol a => fun
    | .symbol b => a == b
    | _ => false
  | .varArgs => fun
    | .varArgs => true
    | _ => false
  | .binary l op r => fun
    | .binary l' op' r' => l.equals l' && op == op' && r.equals r'
    | _ => false
  | .unary op e => fun
    | .unary op' e' => op == op' && e.equals e'
    | _ => false
  | .call c => fun
    | .call c' => c.equals c'
    | _ => false
  | .function b => fun
    | .function b' => b.equals b'
    | _ => false
  | .table t => fun
    | .table t' => t.equals t'
    | _ => false
  | .interpolated ss => fun
    | .interpolated ss' => Segment.equalAll ss ss'
    | _ => false
  | .assertion e t => fun
    | .assertion e' t' => e.equals e' && t.equals t'
    | _ => false
  | .ifElse c t bs e => fun
    | .ifElse c' t' bs' e' =>
        c.equals c' && t.equals t' && ElseIfExpr.equalAll bs bs' && e.equals e'
    | _ => false
  | .index t k => fun
    | .index t' k' => t.equals t' && k.equals k'
    | _ => false
  | .paren e => fun
    | .paren e' => e.equals e'
    | _ => false
  | .custom n => fun
    | .custom n' => n.equals n'
    | _ => false
termination_by structural x => x

def Expr.equalAll : List Expr → List Expr → Bool
  | [], es' => es'.isEmpty
  | e :: es, es' =>
      match es' with
      | [] => false
      | e' :: es' => e.equals e' && Expr.equalAll es es'
termination_by structural x => x

def Expr.equalOption : Option Expr → Option Expr → Bool
  | none, e' => e'.isNone
  | some e, e' =>
      match e' with
      | none => false
      | some e' => e.equals e'
termination_by structural x => x

def Segment.equals : Segment → Segment → Bool
  | .text a => fun
    | .text b => a == b
    | _ => false
  | .expr e => fun
    | .expr e' => e.equals e'
    | _ => false
termination_by structural x => x

def Segment.equalAll : List Segment → List Segment → Bool
  | [], ss' => ss'.isEmpty
  | s :: ss, ss' =>
      match ss' with
      | [] => false
      | s' :: ss' => s.equals s' && Segment.equalAll ss ss'
termination_by structural x => x

def ElseIfExpr.equals : ElseIfExpr → ElseIfExpr → Bool
  | ⟨c, v⟩, ⟨c', v'⟩ => c.equals c' && v.equals v'
termination_by structural x => x

def ElseIfExpr.equalAll : List ElseIfExpr → List ElseIfExpr → Bool
  | [], bs' => bs'.isEmpty
  | b :: bs, bs' =>
      match bs' with
      | [] => false
      | b' :: bs' => b.equals b' && ElseIfExpr.equalAll bs bs'
termination_by structural x => x

def Table.equals : Table → Table → Bool
  | ⟨fs, p⟩, ⟨fs', p'⟩ => TableField.equalAll fs fs' && p == p'
termination_by structural x => x

def TableField.equals : TableField → TableField → Bool
  | .positional v => fun
    | .positional v' => v.equals v'
    | _ => false
  | .named k v => fun
    | .named k' v' => k == k' && v.equals v'
    | _ => false
  | .keyed k v => fun
    | .keyed k' v' => k.equals k' && v.equals v'
    | _ => false
termination_by structural x => x

def TableField.equalAll : List TableField → List TableField → Bool
  | [], ts' => ts'.isEmpty
  | t :: ts, ts' =>
      match ts' with
      | [] => false
      | t' :: ts' => t.equals t' && TableField.equalAll ts ts'
termination_by structural x => x

def Custom.equals : Custom → Custom → Bool
  | ⟨k, es⟩, ⟨k', es'⟩ => k == k' && Expr.equalAll es es'
termination_by structural x => x

def Call.equals : Call → Call → Bool
  | ⟨h, ss⟩, ⟨h', ss'⟩ => h.equals h' && Suffix.equalAll ss ss'
termination_by structural x => x

def CallHead.equals : CallHead → CallHead → Bool
  | .name a => fun
    | .name b => a == b
    | _ => false
  | .expr e => fun
    | .expr e' => e.equals e'
    | _ => false
termination_by structural x => x

def Suffix.equals : Suffix → Suffix → Bool
  | .call as => fun
    | .call as' => Expr.equalAll as as'
    | _ => false
  | .method n as => fun
    | .method n' as' => n == n' && Expr.equalAll as as'
    | _ => false
  | .dot n => fun
    | .dot n' => n == n'
    | _ => false
  | .brackets k => fun
    | .brackets k' => k.equals k'
    | _ => false
termination_by structural x => x

def Suffix.equalAll : List Suffix → List Suffix → Bool
  | [], ss' => ss'.isEmpty
  | s :: ss, ss' =>
      match ss' with
      | [] => false
      | s' :: ss' => s.equals s' && Suffix.equalAll ss ss'
termination_by structural x => x

def FunctionBody.equals : FunctionBody → FunctionBody → Bool
  | ⟨gs, ps, ts, r, b⟩, ⟨gs', ps', ts', r', b'⟩ =>
      GenericParam.equalOption gs gs' && ps == ps' && Ty.equalAnnotations ts ts'
        && Ty.equalOption r r' && Stmt.equalAll b b'
termination_by structural x => x

def GenericParam.equals : GenericParam → GenericParam → Bool
  | ⟨n, b, d⟩, ⟨n', b', d'⟩ => n == n' && Ty.equalOption b b' && Ty.equalOption d d'
termination_by structural x => x

def GenericParam.equalAll : List GenericParam → List GenericParam → Bool
  | [], gs' => gs'.isEmpty
  | g :: gs, gs' =>
      match gs' with
      | [] => false
      | g' :: gs' => g.equals g' && GenericParam.equalAll gs gs'
termination_by structural x => x

def GenericParam.equalOption : Option (List GenericParam) → Option (List GenericParam) → Bool
  | none, gs' => gs'.isNone
  | some gs, gs' =>
      match gs' with
      | none => false
      | some gs' => GenericParam.equalAll gs gs'
termination_by structural x => x

def Ty.equals : Ty → Ty → Bool
  | .basic a => fun
    | .basic b => a == b
    | _ => false
  | .boolean a => fun
    | .boolean b => a == b
    | _ => false
  | .string a => fun
    | .string b => a == b
    | _ => false
  | .array t a => fun
    | .array t' a' => t.equals t' && a == a'
    | _ => false
  | .table fs => fun
    | .table fs' => TypeField.equalAll fs fs'
    | _ => false
  | .tuple ts r => fun
    | .tuple ts' r' => Ty.equalAll ts ts' && Ty.equalOption r r'
    | _ => false
  | .union ts => fun
    | .union ts' => Ty.equalAll ts ts'
    | _ => false
  | .inter ts => fun
    | .inter ts' => Ty.equalAll ts ts'
    | _ => false
  | .optional t => fun
    | .optional t' => t.equals t'
    | _ => false
  | .callback gs as t => fun
    | .callback gs' as' t' =>
        GenericParam.equalOption gs gs' && TypeArg.equalAll as as' && t.equals t'
    | _ => false
  | .typeof e => fun
    | .typeof e' => e.equals e'
    | _ => false
  | .variadic t => fun
    | .variadic t' => t.equals t'
    | _ => false
  | .generic b ts => fun
    | .generic b' ts' => b == b' && Ty.equalAll ts ts'
    | _ => false
termination_by structural x => x

def Ty.equalAll : List Ty → List Ty → Bool
  | [], ts' => ts'.isEmpty
  | t :: ts, ts' =>
      match ts' with
      | [] => false
      | t' :: ts' => t.equals t' && Ty.equalAll ts ts'
termination_by structural x => x

def Ty.equalOption : Option Ty → Option Ty → Bool
  | none, t' => t'.isNone
  | some t, t' =>
      match t' with
      | none => false
      | some t' => t.equals t'
termination_by structural x => x

def Ty.equalAnnotations : List (Option Ty) → List (Option Ty) → Bool
  | [], ts' => ts'.isEmpty
  | t :: ts, ts' =>
      match ts' with
      | [] => false
      | t' :: ts' => Ty.equalOption t t' && Ty.equalAnnotations ts ts'
termination_by structural x => x

def TypeField.equals : TypeField → TypeField → Bool
  | .named a k v => fun
    | .named a' k' v' => a == a' && k == k' && v.equals v'
    | _ => false
  | .indexed a k v => fun
    | .indexed a' k' v' => a == a' && k.equals k' && v.equals v'
    | _ => false
termination_by structural x => x

def TypeField.equalAll : List TypeField → List TypeField → Bool
  | [], ts' => ts'.isEmpty
  | t :: ts, ts' =>
      match ts' with
      | [] => false
      | t' :: ts' => t.equals t' && TypeField.equalAll ts ts'
termination_by structural x => x

def TypeArg.equals : TypeArg → TypeArg → Bool
  | ⟨n, t⟩, ⟨n', t'⟩ => n == n' && t.equals t'
termination_by structural x => x

def TypeArg.equalAll : List TypeArg → List TypeArg → Bool
  | [], as' => as'.isEmpty
  | a :: as, as' =>
      match as' with
      | [] => false
      | a' :: as' => a.equals a' && TypeArg.equalAll as as'
termination_by structural x => x

def Stmt.equals : Stmt → Stmt → Bool
  | .assign ts op vs => fun
    | .assign ts' op' vs' => Expr.equalAll ts ts' && op == op' && Expr.equalAll vs vs'
    | _ => false
  | .localDecl ns ts vs => fun
    | .localDecl ns' ts' vs' => ns == ns' && Ty.equalAnnotations ts ts' && Expr.equalAll vs vs'
    | _ => false
  | .function n b => fun
    | .function n' b' => n == n' && b.equals b'
    | _ => false
  | .ifThen c t bs e => fun
    | .ifThen c' t' bs' e' =>
        c.equals c' && Stmt.equalAll t t' && ElseIf.equalAll bs bs' && Stmt.equalOption e e'
    | _ => false
  | .whileDo c b => fun
    | .whileDo c' b' => c.equals c' && Stmt.equalAll b b'
    | _ => false
  | .numericFor n a z s b => fun
    | .numericFor n' a' z' s' b' =>
        n == n' && a.equals a' && z.equals z' && Expr.equalOption s s' && Stmt.equalAll b b'
    | _ => false
  | .genericFor ns es b => fun
    | .genericFor ns' es' b' => ns == ns' && Expr.equalAll es es' && Stmt.equalAll b b'
    | _ => false
  | .repeatUntil b c => fun
    | .repeatUntil b' c' => Stmt.equalAll b b' && c.equals c'
    | _ => false
  | .doBlock b => fun
    | .doBlock b' => Stmt.equalAll b b'
    | _ => false
  | .returns vs => fun
    | .returns vs' => Expr.equalAll vs vs'
    | _ => false
  | .breakLoop => fun
    | .breakLoop => true
    | _ => false
  | .continueLoop => fun
    | .continueLoop => true
    | _ => false
  | .goto l => fun
    | .goto l' => l == l'
    | _ => false
  | .label n => fun
    | .label n' => n == n'
    | _ => false
  | .call c => fun
    | .call c' => c.equals c'
    | _ => false
  | .typeDecl x n gs t => fun
    | .typeDecl x' n' gs' t' =>
        x == x' && n == n' && GenericParam.equalOption gs gs' && t.equals t'
    | _ => false
  | .comment t => fun
    | .comment t' => t == t'
    | _ => false
  | .custom n => fun
    | .custom n' => n.equals n'
    | _ => false
termination_by structural x => x

def Stmt.equalAll : List Stmt → List Stmt → Bool
  | [], ss' => ss'.isEmpty
  | s :: ss, ss' =>
      match ss' with
      | [] => false
      | s' :: ss' => s.equals s' && Stmt.equalAll ss ss'
termination_by structural x => x

def Stmt.equalOption : Option (List Stmt) → Option (List Stmt) → Bool
  | none, b' => b'.isNone
  | some b, b' =>
      match b' with
      | none => false
      | some b' => Stmt.equalAll b b'
termination_by structural x => x

def ElseIf.equals : ElseIf → ElseIf → Bool
  | ⟨c, b⟩, ⟨c', b'⟩ => c.equals c' && Stmt.equalAll b b'
termination_by structural x => x

def ElseIf.equalAll : List ElseIf → List ElseIf → Bool
  | [], bs' => bs'.isEmpty
  | b :: bs, bs' =>
      match bs' with
      | [] => false
      | b' :: bs' => b.equals b' && ElseIf.equalAll bs bs'
termination_by structural x => x

end

def Chunk.equals (c c' : Chunk) : Bool := Stmt.equalAll c.block c'.block

def Node.equals : Node → Node → Bool
  | .chunk c => fun
    | .chunk c' => c.equals c'
    | _ => false
  | .block b => fun
    | .block b' => Stmt.equalAll b b'
    | _ => false
  | .stmt s => fun
    | .stmt s' => s.equals s'
    | _ => false
  | .elseIf b => fun
    | .elseIf b' => b.equals b'
    | _ => false
  | .expr e => fun
    | .expr e' => e.equals e'
    | _ => false
  | .elseIfExpr b => fun
    | .elseIfExpr b' => b.equals b'
    | _ => false
  | .segment s => fun
    | .segment s' => s.equals s'
    | _ => false
  | .tableField f => fun
    | .tableField f' => f.equals f'
    | _ => false
  | .functionBody b => fun
    | .functionBody b' => b.equals b'
    | _ => false
  | .call c => fun
    | .call c' => c.equals c'
    | _ => false
  | .args as => fun
    | .args as' => Expr.equalAll as as'
    | _ => false
  | .callHead h => fun
    | .callHead h' => h.equals h'
    | _ => false
  | .suffix s => fun
    | .suffix s' => s.equals s'
    | _ => false
  | .parameter p => fun
    | .parameter p' => p == p'
    | _ => false
  | .generics gs => fun
    | .generics gs' => GenericParam.equalAll gs gs'
    | _ => false
  | .genericParam g => fun
    | .genericParam g' => g.equals g'
    | _ => false
  | .type t => fun
    | .type t' => t.equals t'
    | _ => false
  | .typeField f => fun
    | .typeField f' => f.equals f'
    | _ => false
  | .typeArg a => fun
    | .typeArg a' => a.equals a'
    | _ => false

end LuauSyntax
