import LuauSyntax.Json.Scalar
import LuauSyntax.Node

namespace LuauSyntax

mutual

def Expr.toJson : Expr → Json
  | .literal v => .tagged "Literal" v.toJson
  | .symbol n => .tagged "Symbol" (.str n)
  | .varArgs => .str "VarArgs"
  | .binary l op r =>
      .tagged "Binary" (.obj [("left", l.toJson), ("operator", op.toJson), ("right", r.toJson)])
  | .unary op e => .tagged "Unary" (.obj [("operator", op.toJson), ("operand", e.toJson)])
  | .call c => .tagged "Call" c.toJson
  | .function b => .tagged "Function" (.obj [("body", b.toJson)])
  | .table t => .tagged "Table" t.toJson
  | .interpolated ss =>
      .tagged "InterpolatedString" (.obj [("segments", .arr (Segment.toJsons ss))])
  | .assertion e t =>
      .tagged "TypeAssertion" (.obj [("expression", e.toJson), ("cast_to", t.toJson)])
  | .ifElse c t bs e =>
      .tagged "IfExpression" (.obj [("condition", c.toJson), ("then_value", t.toJson),
        ("else_ifs", .arr (ElseIfExpr.toJsons bs)), ("else_value", e.toJson)])
  | .index t k => .tagged "Index" (.obj [("target", t.toJson), ("index", k.toJson)])
  | .paren e => .tagged "Parenthesized" e.toJson
  | .custom n => .tagged "Custom" n.toJson

def Expr.toJsons : List Expr → List Json
  | [] => []
  | e :: es => e.toJson :: Expr.toJsons es

def Expr.optionToJson : Option Expr → Json
  | none => .null
  | some e => e.toJson

def Segment.toJson : Segment → Json
  | .text t => .tagged "Text" (.str t)
  | .expr e => .tagged "Expression" e.toJson

def Segment.toJsons : List Segment → List Json
  | [] => []
  | s :: ss => s.toJson :: Segment.toJsons ss

def ElseIfExpr.toJson : ElseIfExpr → Json
  | ⟨c, v⟩ => .obj [("condition", c.toJson), ("value", v.toJson)]

def ElseIfExpr.toJsons : List ElseIfExpr → List Json
  | [] => []
  | b :: bs => b.toJson :: ElseIfExpr.toJsons bs

def Table.toJson : Table → Json
  | ⟨fs, p⟩ => .obj [("fields", .arr (TableField.toJsons fs)), ("padded", .bool p)]

def TableField.toJson : TableField → Json
  | .positional v => .tagged "NoKey" v.toJson
  | .named k v => .tagged "NameKey" (.obj [("key", .str k), ("value", v.toJson)])
  | .keyed k v => .tagged "ExpressionKey" (.obj [("key", k.toJson), ("value", v.toJson)])

def TableField.toJsons : List TableField → List Json
  | [] => []
  | t :: ts => t.toJson :: TableField.toJsons ts

def Custom.toJson : Custom → Json
  | ⟨k, es⟩ => .obj [("kind", .str k), ("children", .arr (Expr.toJsons es))]

def Call.toJson : Call → Json
  | ⟨h, ss⟩ => .obj [("prefix", h.toJson), ("suffixes", .arr (Suffix.toJsons ss))]

def CallHead.toJson : CallHead → Json
  | .name n => .tagged "Name" (.str n)
  | .expr e => .tagged "Expression" e.toJson

def Suffix.toJson : Suffix → Json
  | .call as => .tagged "Call" (.wrapped "arguments" (Expr.toJsons as))
  | .method n as =>
      .tagged "MethodCall" (.obj [("name", .str n),
        ("args", .wrapped "arguments" (Expr.toJsons as))])
  | .dot n => .tagged "Index" (.tagged "Dot" (.str n))
  | .brackets k => .tagged "Index" (.tagged "Brackets" k.toJson)

def Suffix.toJsons : List Suffix → List Json
  | [] => []
  | s :: ss => s.toJson :: Suffix.toJsons ss

def FunctionBody.toJson : FunctionBody → Json
  | ⟨gs, ps, ts, r, b⟩ =>
      .obj [("generics", GenericParam.declToJson gs), ("parameters", .ofList Parameter.toJson ps),
        ("type_specifiers", .arr (Ty.annotationsToJson ts)), ("return_type", Ty.optionToJson r),
        ("body", .wrapped "statements" (Stmt.toJsons b))]

def GenericParam.toJson : GenericParam → Json
  | ⟨n, b, d⟩ =>
      .obj [("kind", n.toJson), ("constraint", Ty.optionToJson b), ("default", Ty.optionToJson d)]

def GenericParam.toJsons : List GenericParam → List Json
  | [] => []
  | g :: gs => g.toJson :: GenericParam.toJsons gs

def GenericParam.declToJson : Option (List GenericParam) → Json
  | none => .null
  | some gs => .wrapped "parameters" (GenericParam.toJsons gs)

def Ty.toJson : Ty → Json
  | .basic n => .tagged "Basic" (.str n)
  | .boolean b => .tagged "BooleanLiteral" (.bool b)
  | .string s => .tagged "StringLiteral" (.str s)
  | .array t a =>
      .tagged "Array" (.obj [("element", t.toJson), ("access", .ofOption Access.toJson a)])
  | .table fs => .tagged "Table" (.obj [("fields", .arr (TypeField.toJsons fs))])
  | .tuple ts r =>
      .tagged "Tuple" (.obj [("elements", .arr (Ty.toJsons ts)), ("variadic", Ty.optionToJson r)])
  | .union ts => .tagged "Union" (.arr (Ty.toJsons ts))
  | .inter ts => .tagged "Intersection" (.arr (Ty.toJsons ts))
  | .optional t => .tagged "Optional" t.toJson
  | .callback gs as t =>
      .tagged "Callback" (.obj [("generics", GenericParam.declToJson gs),
        ("arguments", .arr (TypeArg.toJsons as)), ("return_type", t.toJson)])
  | .typeof e => .tagged "Typeof" e.toJson
  | .variadic t => .tagged "Variadic" t.toJson
  | .generic b ts =>
      .tagged "Generic" (.obj [("base", .str b), ("arguments", .arr (Ty.toJsons ts))])

def Ty.toJsons : List Ty → List Json
  | [] => []
  | t :: ts => t.toJson :: Ty.toJsons ts

def Ty.optionToJson : Option Ty → Json
  | none => .null
  | some t => t.toJson

def Ty.annotationsToJson : List (Option Ty) → List Json
  | [] => []
  | t :: ts => Ty.optionToJson t :: Ty.annotationsToJson ts

def TypeField.toJson : TypeField → Json
  | .named a k v =>
      .obj [("access", .ofOption Access.toJson a), ("key", .tagged "Name" (.str k)),
        ("value", v.toJson)]
  | .indexed a k v =>
      .obj [("access", .ofOption Access.toJson a), ("key", .tagged "Computed" k.toJson),
        ("value", v.toJson)]

def TypeField.toJsons : List TypeField → List Json
  | [] => []
  | t :: ts => t.toJson :: TypeField.toJsons ts

def TypeArg.toJson : TypeArg → Json
  | ⟨n, t⟩ => .obj [("name", .ofOption .str n), ("type_info", t.toJson)]

def TypeArg.toJsons : List TypeArg → List Json
  | [] => []
  | a :: as => a.toJson :: TypeArg.toJsons as

def Stmt.toJson : Stmt → Json
  | .assign ts op vs =>
      .tagged "Assignment" (.obj [("targets", .arr (Expr.toJsons ts)), ("operator", op.toJson),
        ("values", .arr (Expr.toJsons vs))])
  | .localDecl ns ts vs =>
      .tagged "LocalAssignment" (.obj [("names", .ofList .str ns),
        ("types", .arr (Ty.annotationsToJson ts)), ("values", .arr (Expr.toJsons vs))])
  | .function n b =>
      .tagged "FunctionDeclaration" (.obj [("name", n.toJson), ("body", b.toJson)])
  | .ifThen c t bs e =>
      .tagged "If" (.obj [("condition", c.toJson),
        ("then_block", .wrapped "statements" (Stmt.toJsons t)),
        ("else_ifs", .arr (ElseIf.toJsons bs)), ("else_block", Stmt.optionToJson e)])
  | .whileDo c b =>
      .tagged "While" (.obj [("condition", c.toJson),
        ("body", .wrapped "statements" (Stmt.toJsons b))])
  | .numericFor n a z s b =>
      .tagged "NumericFor" (.obj [("variable", .str n), ("start", a.toJson), ("end", z.toJson),
        ("step", Expr.optionToJson s), ("body", .wrapped "statements" (Stmt.toJsons b))])
  | .genericFor ns es b =>
      .tagged "GenericFor" (.obj [("names", .ofList .str ns),
        ("expressions", .arr (Expr.toJsons es)),
        ("body", .wrapped "statements" (Stmt.toJsons b))])
  | .repeatUntil b c =>
      .tagged "Repeat" (.obj [("body", .wrapped "statements" (Stmt.toJsons b)),
        ("until", c.toJson)])
  | .doBlock b =>
      .tagged "Do" (.obj [("body", .wrapped "statements" (Stmt.toJsons b))])
  | .returns vs => .tagged "Return" (.obj [("values", .arr (Expr.toJsons vs))])
  | .breakLoop => .str "Break"
  | .continueLoop => .str "Continue"
  | .goto l => .tagged "Goto" (.obj [("label", .str l)])
  | .label n => .tagged "Label" (.obj [("name", .str n)])
  | .call c => .tagged "Call" c.toJson
  | .typeDecl x n gs t =>
      .tagged "TypeDeclaration" (.obj [("exported", .bool x), ("name", .str n),
        ("generics", GenericParam.declToJson gs), ("declare_as", t.toJson)])
  | .comment t => .tagged "Comment" (.obj [("text", .str t)])
  | .custom n => .tagged "Custom" n.toJson

def Stmt.toJsons : List Stmt → List Json
  | [] => []
  | s :: ss => s.toJson :: Stmt.toJsons ss

def Stmt.optionToJson : Option (List Stmt) → Json
  | none => .null
  | some b => .wrapped "statements" (Stmt.toJsons b)

def ElseIf.toJson : ElseIf → Json
  | ⟨c, b⟩ =>
      .obj [("condition", c.toJson), ("block", .wrapped "statements" (Stmt.toJsons b))]

def ElseIf.toJsons : List ElseIf → List Json
  | [] => []
  | b :: bs => b.toJson :: ElseIf.toJsons bs

end

namespace Json

def ofArgs (as : List Expr) : Json := .wrapped "arguments" (Expr.toJsons as)

def ofBlock (b : Block) : Json := .wrapped "statements" (Stmt.toJsons b)

def ofGenerics (gs : Generics) : Json := .wrapped "parameters" (GenericParam.toJsons gs)

end Json

def Chunk.toJson (c : Chunk) : Json := .obj [("block", .ofBlock c.block)]

def Node.toJson : Node → Json
  | .chunk c => c.toJson
  | .block b => .ofBlock b
  | .stmt s => s.toJson
  | .elseIf b => b.toJson
  | .expr e => e.toJson
  | .elseIfExpr b => b.toJson
  | .segment s => s.toJson
  | .tableField f => f.toJson
  | .functionBody b => b.toJson
  | .call c => c.toJson
  | .args as => .ofArgs as
  | .callHead h => h.toJson
  | .suffix s => s.toJson
  | .parameter p => p.toJson
  | .generics gs => .ofGenerics gs
  | .genericParam g => g.toJson
  | .type t => t.toJson
  | .typeField f => f.toJson
  | .typeArg a => a.toJson

end LuauSyntax
