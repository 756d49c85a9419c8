import LuauSyntax.Json.Scalar
import LuauSyntax.Node

namespace LuauSyntax

mutual

def Expr.readWithin : Nat → Json → Option Expr
  | 0, _ => none
  | n + 1, j => do
      match ← j.variant? with
      | ("Literal", j) => return .literal (← Literal.ofJson? j)
      | ("Symbol", j) => return .symbol (← j.str?)
      | ("VarArgs", .null) => return .varArgs
      | ("Binary", j) =>
          return .binary (← Expr.readWithin n (← j.field? "left"))
            (← BinaryOp.ofJson? (← j.field? "operator")) (← Expr.readWithin n (← j.field? "right"))
      | ("Unary", j) =>
          return .unary (← UnaryOp.ofJson? (← j.field? "operator"))
            (← Expr.readWithin n (← j.field? "operand"))
      | ("Call", j) => return .call (← Call.readWithin n j)
      | ("Function", j) => return .function (← FunctionBody.readWithin n (← j.field? "body"))
      | ("Table", j) => return .table (← Table.readWithin n j)
      | ("InterpolatedString", j) =>
          return .interpolated (← (← j.field? "segments").list? (Segment.readWithin n))
      | ("TypeAssertion", j) =>
          return .assertion (← Expr.readWithin n (← j.field? "expression"))
            (← Ty.readWithin n (← j.field? "cast_to"))
      | ("IfExpression", j) =>
          return .ifElse (← Expr.readWithin n (← j.field? "condition"))
            (← Expr.readWithin n (← j.field? "then_value"))
            (← (← j.field? "else_ifs").list? (ElseIfExpr.readWithin n))
            (← Expr.readWithin n (← j.field? "else_value"))
      | ("Index", j) =>
          return .index (← Expr.readWithin n (← j.field? "target"))
            (← Expr.readWithin n (← j.field? "index"))
      | ("Parenthesized", j) => return .paren (← Expr.readWithin n j)
      | ("Custom", j) => return .custom (← Custom.readWithin n j)
      | _ => none

def Segment.readWithin : Nat → Json → Option Segment
  | 0, _ => none
  | n + 1, j => do
      match ← j.variant? with
      | ("Text", j) => return .text (← j.str?)
      | ("Expression", j) => return .expr (← Expr.readWithin n j)
      | _ => none

def ElseIfExpr.readWithin : Nat → Json → Option ElseIfExpr
  | 0, _ => none
  | n + 1, j =>
      return ⟨← Expr.readWithin n (← j.field? "condition"),
        ← Expr.readWithin n (← j.field? "value")⟩

def Table.readWithin : Nat → Json → Option Table
  | 0, _ => none
  | n + 1, j =>
      return ⟨← (← j.field? "fields").list? (TableField.readWithin n),
        ← (← j.field? "padded").bool?⟩

def TableField.readWithin : Nat → Json → Option TableField
  | 0, _ => none
  | n + 1, j => do
      match ← j.variant? with
      | ("NoKey", j) => return .positional (← Expr.readWithin n j)
      | ("NameKey", j) =>
          return .named (← (← j.field? "key").str?) (← Expr.readWithin n (← j.field? "value"))
      | ("ExpressionKey", j) =>
          return .keyed (← Expr.readWithin n (← j.field? "key"))
            (← Expr.readWithin n (← j.field? "value"))
      | _ => none

def Custom.readWithin : Nat → Json → Option Custom
  | 0, _ => none
  | n + 1, j =>
      return ⟨← (← j.field? "kind").str?, ← (← j.field? "children").list? (Expr.readWithin n)⟩

def Call.readWithin : Nat → Json → Option Call
  | 0, _ => none
  | n + 1, j =>
      return ⟨← CallHead.readWithin n (← j.field? "prefix"),
        ← (← j.field? "suffixes").list? (Suffix.readWithin n)⟩

def CallHead.readWithin : Nat → Json → Option CallHead
  | 0, _ => none
  | n + 1, j => do
      match ← j.variant? with
      | ("Name", j) => return .name (← j.str?)
      | ("Expression", j) => return .expr (← Expr.readWithin n j)
      | _ => none

def Suffix.readWithin : Nat → Json → Option Suffix
  | 0, _ => none
  | n + 1, j => do
      match ← j.variant? with
      | ("Call", j) => return .call (← Expr.readArgs n j)
      | ("MethodCall", j) =>
          return .method (← (← j.field? "name").str?) (← Expr.readArgs n (← j.field? "args"))
      | ("Index", j) =>
          match ← j.variant? with
          | ("Dot", j) => return .dot (← j.str?)
          | ("Brackets", j) => return .brackets (← Expr.readWithin n j)
          | _ => none
      | _ => none

def Expr.readArgs : Nat → Json → Option (List Expr)
  | 0, _ => none
  | n + 1, j => do (← j.field? "arguments").list? (Expr.readWithin n)

def FunctionBody.readWithin : Nat → Json → Option FunctionBody
  | 0, _ => none
  | n + 1, j =>
      return ⟨← (← j.field? "generics").option? (GenericParam.readDecl n),
        ← (← j.field? "parameters").list? Parameter.ofJson?,
        ← (← j.field? "type_specifiers").list? (Json.option? (Ty.readWithin n)),
        ← (← j.field? "return_type").option? (Ty.readWithin n),
        ← Stmt.readBlock n (← j.field? "body")⟩

def GenericParam.readWithin : Nat → Json → Option GenericParam
  | 0, _ => none
  | n + 1, j =>
      return ⟨← GenericName.ofJson? (← j.field? "kind"),
        ← (← j.field? "constraint").option? (Ty.readWithin n),
        ← (← j.field? "default").option? (Ty.readWithin n)⟩

def GenericParam.readDecl : Nat → Json → Option (List GenericParam)
  | 0, _ => none
  | n + 1, j => do (← j.field? "parameters").list? (GenericParam.readWithin n)

def Ty.readWithin : Nat → Json → Option Ty
  | 0, _ => none
  | n + 1, j => do
      match ← j.variant? with
      | ("Basic", j) => return .basic (← j.str?)
      | ("BooleanLiteral", j) => return .boolean (← j.bool?)
      | ("StringLiteral", j) => return .string (← j.str?)
      | ("Array", j) =>
          return .array (← Ty.readWithin n (← j.field? "element"))
            (← (← j.field? "access").option? Access.ofJson?)
      | ("Table", j) => return .table (← (← j.field? "fields").list? (TypeField.readWithin n))
      | ("Tuple", j) =>
          return .tuple (← (← j.field? "elements").list? (Ty.readWithin n))
            (← (← j.field? "variadic").option? (Ty.readWithin n))
      | ("Union", j) => return .union (← j.list? (Ty.readWithin n))
      | ("Intersection", j) => return .inter (← j.list? (Ty.readWithin n))
      | ("Optional", j) => return .optional (← Ty.readWithin n j)
      | ("Callback", j) =>
          return .callback (← (← j.field? "generics").option? (GenericParam.readDecl n))
            (← (← j.field? "arguments").list? (TypeArg.readWithin n))
            (← Ty.readWithin n (← j.field? "return_type"))
      | ("Typeof", j) => return .typeof (← Expr.readWithin n j)
      | ("Variadic", j) => return .variadic (← Ty.readWithin n j)
      | ("Generic", j) =>
          return .generic (← (← j.field? "base").str?)
            (← (← j.field? "arguments").list? (Ty.readWithin n))
      | _ => none

def TypeField.readWithin : Nat → Json → Option TypeField
  | 0, _ => none
  | n + 1, j => do
      let access ← (← j.field? "access").option? Access.ofJson?
      match ← (← j.field? "key").variant? with
      | ("Name", k) => return .named access (← k.str?) (← Ty.readWithin n (← j.field? "value"))
      | ("Computed", k) =>
          return .indexed access (← Ty.readWithin n k) (← Ty.readWithin n (← j.field? "value"))
      | _ => none

def TypeArg.readWithin : Nat → Json → Option TypeArg
  | 0, _ => none
  | n + 1, j =>
      return ⟨← (← j.field? "name").option? Json.str?, ← Ty.readWithin n (← j.field? "type_info")⟩

def Stmt.readWithin : Nat → Json → Option Stmt
  | 0, _ => none
  | n + 1, j => do
      match ← j.variant? with
      | ("Assignment", j) =>
          return .assign (← (← j.field? "targets").list? (Expr.readWithin n))
            (← AssignOp.ofJson? (← j.field? "operator"))
            (← (← j.field? "values").list? (Expr.readWithin n))
      | ("LocalAssignment", j) =>
          return .localDecl (← (← j.field? "names").list? Json.str?)
            (← (← j.field? "types").list? (Json.option? (Ty.readWithin n)))
            (← (← j.field? "values").list? (Expr.readWithin n))
      | ("FunctionDeclaration", j) =>
          return .function (← FunctionName.ofJson? (← j.field? "name"))
            (← FunctionBody.readWithin n (← j.field? "body"))
      | ("If", j) =>
          return .ifThen (← Expr.readWithin n (← j.field? "condition"))
            (← Stmt.readBlock n (← j.field? "then_block"))
            (← (← j.field? "else_ifs").list? (ElseIf.readWithin n))
            (← (← j.field? "else_block").option? (Stmt.readBlock n))
      | ("While", j) =>
          return .whileDo (← Expr.readWithin n (← j.field? "condition"))
            (← Stmt.readBlock n (← j.field? "body"))
      | ("NumericFor", j) =>
          return .numericFor (← (← j.field? "variable").str?)
            (← Expr.readWithin n (← j.field? "start")) (← Expr.readWithin n (← j.field? "end"))
            (← (← j.field? "step").option? (Expr.readWithin n))
            (← Stmt.readBlock n (← j.field? "body"))
      | ("GenericFor", j) =>
          return .genericFor (← (← j.field? "names").list? Json.str?)
            (← (← j.field? "expressions").list? (Expr.readWithin n))
            (← Stmt.readBlock n (← j.field? "body"))
      | ("Repeat", j) =>
          return .repeatUntil (← Stmt.readBlock n (← j.field? "body"))
            (← Expr.readWithin n (← j.field? "until"))
      | ("Do", j) => return .doBlock (← Stmt.readBlock n (← j.field? "body"))
      | ("Return", j) => return .returns (← (← j.field? "values").list? (Expr.readWithin n))
      | ("Break", .null) => return .breakLoop
      | ("Continue", .null) => return .continueLoop
      | ("Goto", j) => return .goto (← (← j.field? "label").str?)
      | ("Label", j) => return .label (← (← j.field? "name").str?)
      | ("Call", j) => return .call (← Call.readWithin n j)
      | ("TypeDeclaration", j) =>
          return .typeDecl (← (← j.field? "exported").bool?) (← (← j.field? "name").str?)
            (← (← j.field? "generics").option? (GenericParam.readDecl n))
            (← Ty.readWithin n (← j.field? "declare_as"))
      | ("Comment", j) => return .comment (← (← j.field? "text").str?)
      | ("Custom", j) => return .custom (← Custom.readWithin n j)
      | _ => none

def Stmt.readBlock : Nat → Json → Option (List Stmt)
  | 0, _ => none
  | n + 1, j => do (← j.field? "statements").list? (Stmt.readWithin n)

def ElseIf.readWithin : Nat → Json → Option ElseIf
  | 0, _ => none
  | n + 1, j =>
      return ⟨← Expr.readWithin n (← j.field? "condition"), ← Stmt.readBlock n (← j.field? "block")⟩

end

namespace Json

def limit (j : Json) : Nat := j.depth + 1

def block? (j : Json) : Option Block := Stmt.readBlock j.limit j

def args? (j : Json) : Option (List Expr) := Expr.readArgs j.limit j

def generics? (j : Json) : Option Generics := GenericParam.readDecl j.limit j

end Json

def Expr.ofJson? (j : Json) : Option Expr := readWithin j.limit j

def Segment.ofJson? (j : Json) : Option Segment := readWithin j.limit j

def ElseIfExpr.ofJson? (j : Json) : Option ElseIfExpr := readWithin j.limit j

def Table.ofJson? (j : Json) : Option Table := readWithin j.limit j

def TableField.ofJson? (j : Json) : Option TableField := readWithin j.limit j

def Call.ofJson? (j : Json) : Option Call := readWithin j.limit j

def CallHead.ofJson? (j : Json) : Option CallHead := readWithin j.limit j

def Suffix.ofJson? (j : Json) : Option Suffix := readWithin j.limit j

def FunctionBody.ofJson? (j : Json) : Option FunctionBody := readWithin j.limit j

def GenericParam.ofJson? (j : Json) : Option GenericParam := readWithin j.limit j

def Ty.ofJson? (j : Json) : Option Ty := readWithin j.limit j

def TypeField.ofJson? (j : Json) : Option TypeField := readWithin j.limit j

def TypeArg.ofJson? (j : Json) : Option TypeArg := readWithin j.limit j

def Stmt.ofJson? (j : Json) : Option Stmt := readWithin j.limit j

def ElseIf.ofJson? (j : Json) : Option ElseIf := readWithin j.limit j

def Chunk.ofJson? (j : Json) : Option Chunk :=
  return ⟨← (← j.field? "block").block?⟩

namespace Node

def Kind.ofName? : String → Option Kind
  | "Chunk" => some .chunk
  | "Block" => some .block
  | "Statement" => some .stmt
  | "ElseIf" => some .elseIf
  | "Expression" => some .expr
  | "ElseIfExpression" => some .elseIfExpr
  | "InterpolatedSegment" => some .segment
  | "TableField" => some .tableField
  | "FunctionBody" => some .functionBody
  | "FunctionCall" => some .call
  | "FunctionArgs" => some .args
  | "Prefix" => some .callHead
  | "Suffix" => some .suffix
  | "Parameter" => some .parameter
  | "GenericDeclaration" => some .generics
  | "GenericParameter" => some .genericParam
  | "TypeInfo" => some .type
  | "TypeField" => some .typeField
  | "TypeArgument" => some .typeArg
  | _ => none

def ofJson? (kind : Kind) (j : Json) : Option Node :=
  match kind with
  | .chunk => (Chunk.ofJson? j).map .chunk
  | .block => j.block?.map .block
  | .stmt => (Stmt.ofJson? j).map .stmt
  | .elseIf => (ElseIf.ofJson? j).map .elseIf
  | .expr => (Expr.ofJson? j).map .expr
  | .elseIfExpr => (ElseIfExpr.ofJson? j).map .elseIfExpr
  | .segment => (Segment.ofJson? j).map .segment
  | .tableField => (TableField.ofJson? j).map .tableField
  | .functionBody => (FunctionBody.ofJson? j).map .functionBody
  | .call => (Call.ofJson? j).map .call
  | .args => j.args?.map .args
  | .callHead => (CallHead.ofJson? j).map .callHead
  | .suffix => (Suffix.ofJson? j).map .suffix
  | .parameter => (Parameter.ofJson? j).map .parameter
  | .generics => j.generics?.map .generics
  | .genericParam => (GenericParam.ofJson? j).map .genericParam
  | .type => (Ty.ofJson? j).map .type
  | .typeField => (TypeField.ofJson? j).map .typeField
  | .typeArg => (TypeArg.ofJson? j).map .typeArg

end Node

end LuauSyntax
