import LuauSyntax.Tree

namespace LuauSyntax

inductive Node where
  | chunk (chunk : Chunk)
  | block (block : Block)
  | stmt (stmt : Stmt)
  | elseIf (branch : ElseIf)
  | expr (expr : Expr)
  | elseIfExpr (branch : ElseIfExpr)
  | segment (segment : Segment)
  | tableField (field : TableField)
  | functionBody (body : FunctionBody)
  | call (call : Call)
  | args (args : List Expr)
  | callHead (head : CallHead)
  | suffix (suffix : Suffix)
  | parameter (parameter : Parameter)
  | generics (generics : Generics)
  | genericParam (param : GenericParam)
  | type (type : Ty)
  | typeField (field : TypeField)
  | typeArg (arg : TypeArg)

namespace Node

inductive Kind where
  | chunk
  | block
  | stmt
  | elseIf
  | expr
  | elseIfExpr
  | segment
  | tableField
  | functionBody
  | call
  | args
  | callHead
  | suffix
  | parameter
  | generics
  | genericParam
  | type
  | typeField
  | typeArg
deriving DecidableEq, Repr

def kind : Node → Kind
  | .chunk _ => .chunk
  | .block _ => .block
  | .stmt _ => .stmt
  | .elseIf _ => .elseIf
  | .expr _ => .expr
  | .elseIfExpr _ => .elseIfExpr
  | .segment _ => .segment
  | .tableField _ => .tableField
  | .functionBody _ => .functionBody
  | .call _ => .call
  | .args _ => .args
  | .callHead _ => .callHead
  | .suffix _ => .suffix
  | .parameter _ => .parameter
  | .generics _ => .generics
  | .genericParam _ => .genericParam
  | .type _ => .type
  | .typeField _ => .typeField
  | .typeArg _ => .typeArg

def ofExprs (es : List Expr) : List Node := es.map .expr

def ofTypes (ts : List Ty) : List Node := ts.map .type

def ofAnnotations (ts : Annotations) : List Node := ts.reduceOption.map .type

def ofGenerics (gs : Option Generics) : List Node := gs.toList.map .generics

def ofType? (t : Option Ty) : List Node := t.toList.map .type

end Node

open Node

def Expr.children : Expr → List Node
  | .literal _ | .symbol _ | .varArgs => []
  | .binary l _ r => [.expr l, .expr r]
  | .unary _ e => [.expr e]
  | .call c => [.call c]
  | .function b => [.functionBody b]
  | .table t => t.fields.map .tableField
  | .interpolated ss => ss.map .segment
  | .assertion e t => [.expr e, .type t]
  | .ifElse c t bs e => .expr c :: .expr t :: bs.map .elseIfExpr ++ [.expr e]
  | .index t k => [.expr t, .expr k]
  | .paren e => [.expr e]
  | .custom n => ofExprs n.children

def Segment.children : Segment → List Node
  | .text _ => []
  | .expr e => [.expr e]

def ElseIfExpr.children (b : ElseIfExpr) : List Node :=
  [.expr b.condition, .expr b.value]

def TableField.children : TableField → List Node
  | .positional v => [.expr v]
  | .named _ v => [.expr v]
  | .keyed k v => [.expr k, .expr v]

def Call.children (c : Call) : List Node :=
  .callHead c.head :: c.suffixes.map .suffix

def CallHead.children : CallHead → List Node
  | .name _ => []
  | .expr e => [.expr e]

def Suffix.children : Suffix → List Node
  | .call as => [.args as]
  | .method _ as => [.args as]
  | .dot _ => []
  | .brackets k => [.expr k]

def FunctionBody.children (b : FunctionBody) : List Node :=
  ofGenerics b.generics ++ b.parameters.map .parameter ++ ofAnnotations b.types
    ++ ofType? b.returns ++ [.block b.body]

def GenericParam.children (g : GenericParam) : List Node :=
  ofType? g.bound ++ ofType? g.default

def Ty.children : Ty → List Node
  | .basic _ | .boolean _ | .string _ => []
  | .array t _ => [.type t]
  | .table fs => fs.map .typeField
  | .tuple ts rest => ofTypes ts ++ ofType? rest
  | .union ts => ofTypes ts
  | .inter ts => ofTypes ts
  | .optional t => [.type t]
  | .callback gs as t => ofGenerics gs ++ as.map .typeArg ++ [.type t]
  | .typeof e => [.expr e]
  | .variadic t => [.type t]
  | .generic _ ts => ofTypes ts

def TypeField.children : TypeField → List Node
  | .named _ _ v => [.type v]
  | .indexed _ k v => [.type k, .type v]

def TypeArg.children (a : TypeArg) : List Node :=
  [.type a.type]

def Stmt.children : Stmt → List Node
  | .assign ts _ vs => ofExprs ts ++ ofExprs vs
  | .localDecl _ ts vs => ofAnnotations ts ++ ofExprs vs
  | .function _ b => [.functionBody b]
  | .ifThen c t bs e => .expr c :: .block t :: bs.map .elseIf ++ e.toList.map .block
  | .whileDo c b => [.expr c, .block b]
  | .numericFor _ a z s b => .expr a :: .expr z :: ofExprs s.toList ++ [.block b]
  | .genericFor _ es b => ofExprs es ++ [.block b]
  | .repeatUntil b c => [.block b, .expr c]
  | .doBlock b => [.block b]
  | .returns vs => ofExprs vs
  | .breakLoop | .continueLoop | .goto _ | .label _ | .comment _ => []
  | .call c => [.call c]
  | .typeDecl _ _ gs t => ofGenerics gs ++ [.type t]
  | .custom n => ofExprs n.children

def ElseIf.children (b : ElseIf) : List Node :=
  [.expr b.condition, .block b.block]

def Node.children : Node → List Node
  | .chunk c => [.block c.block]
  | .block b => b.map .stmt
  | .stmt s => s.children
  | .elseIf b => b.children
  | .expr e => e.children
  | .elseIfExpr b => b.children
  | .segment s => s.children
  | .tableField f => f.children
  | .functionBody b => b.children
  | .call c => c.children
  | .args as => ofExprs as
  | .callHead h => h.children
  | .suffix s => s.children
  | .parameter _ => []
  | .generics gs => gs.map .genericParam
  | .genericParam g => g.children
  | .type t => t.children
  | .typeField f => f.children
  | .typeArg a => a.children

namespace Node.Unfolding

attribute [scoped simp] Node.children Expr.children Segment.children ElseIfExpr.children
  TableField.children Call.children CallHead.children Suffix.children FunctionBody.children
  GenericParam.children Ty.children TypeField.children TypeArg.children Stmt.children
  ElseIf.children Node.ofExprs Node.ofTypes

end Node.Unfolding

def Expr.kindName : Expr → String
  | .literal _ => "Literal"
  | .symbol _ => "Symbol"
  | .varArgs => "VarArgs"
  | .binary .. => "BinaryExpression"
  | .unary .. => "UnaryExpression"
  | .call _ => "FunctionCall"
  | .function _ => "AnonymousFunction"
  | .table _ => "TableConstructor"
  | .interpolated _ => "InterpolatedString"
  | .assertion .. => "TypeAssertion"
  | .ifElse .. => "IfExpression"
  | .index .. => "IndexExpression"
  | .paren _ => "Parenthesized"
  | .custom _ => "Custom"

def Stmt.kindName : Stmt → String
  | .assign .. => "Assignment"
  | .localDecl .. => "LocalAssignment"
  | .function .. => "FunctionDeclaration"
  | .ifThen .. => "If"
  | .whileDo .. => "While"
  | .numericFor .. => "NumericFor"
  | .genericFor .. => "GenericFor"
  | .repeatUntil .. => "Repeat"
  | .doBlock _ => "Do"
  | .returns _ => "Return"
  | .breakLoop => "Break"
  | .continueLoop => "Continue"
  | .goto _ => "Goto"
  | .label _ => "Label"
  | .call _ => "Call"
  | .typeDecl .. => "TypeDeclaration"
  | .comment _ => "Comment"
  | .custom _ => "Custom"

def Ty.kindName : Ty → String
  | .basic _ => "BasicType"
  | .boolean _ => "BooleanLiteralType"
  | .string _ => "StringLiteralType"
  | .array .. => "ArrayType"
  | .table _ => "TableType"
  | .tuple .. => "TupleType"
  | .union _ => "UnionType"
  | .inter _ => "IntersectionType"
  | .optional _ => "OptionalType"
  | .callback .. => "CallbackType"
  | .typeof _ => "TypeofType"
  | .variadic _ => "VariadicType"
  | .generic .. => "GenericType"

def Node.kindName : Node → String
  | .chunk _ => "Chunk"
  | .block _ => "Block"
  | .stmt s => s.kindName
  | .elseIf _ => "ElseIf"
  | .expr e => e.kindName
  | .elseIfExpr _ => "ElseIfExpression"
  | .segment _ => "InterpolatedSegment"
  | .tableField _ => "TableField"
  | .functionBody _ => "FunctionBody"
  | .call _ => "FunctionCall"
  | .args _ => "FunctionArgs"
  | .callHead _ => "Prefix"
  | .suffix _ => "Suffix"
  | .parameter _ => "Parameter"
  | .generics _ => "GenericDeclaration"
  | .genericParam _ => "GenericParameter"
  | .type t => t.kindName
  | .typeField _ => "TypeField"
  | .typeArg _ => "TypeArgument"

end LuauSyntax
