import LuauSyntax.Doc.Custom
import LuauSyntax.Grouping
import LuauSyntax.Number.Rounding
import LuauSyntax.Number.Text
import LuauSyntax.Text.Quoted
import LuauSyntax.Text.Lines

namespace LuauSyntax

open Doc

namespace Doc

def access (a : Option Access) : Doc :=
  match a with
  | none => []
  | some a => text a.token ++ text " "

def boolean (b : Bool) : Doc :=
  text (if b then "true" else "false")

def annotated : List String → List Doc → List Doc
  | [], _ => []
  | n :: ns, [] => text n :: annotated ns []
  | n :: ns, d :: ds => (text n ++ d) :: annotated ns ds

def table (positional padded : Bool) (fields : List Doc) : Doc :=
  if fields.isEmpty then text "\x7b\x7d"
  else if positional then
    text (if padded then "\x7b " else "\x7b") ++ separated ", " fields
      ++ text (if padded then " \x7d" else "\x7d")
  else
    text "\x7b\n" ++ nested (fields.flatMap fun d => margin ++ d ++ text ",\n") ++ indented "\x7d"

def comment (t : String) : Doc :=
  (Text.lines t).flatMap fun l => line (if l = "" then "--" else "-- " ++ l)

end Doc

def Literal.doc : Literal → Doc
  | .nil => text "nil"
  | .boolean b => Doc.boolean b
  | .number n => text n.text
  | .string s => text (Text.quoted s)

def Parameter.doc : Parameter → Doc
  | .name n => text n
  | .ellipsis => text "..."

def GenericName.doc : GenericName → Doc
  | .single n => text n
  | .pack n => text n ++ text "..."

def Generics.namesDoc : Option Generics → Doc
  | none | some [] => []
  | some gs => text "<" ++ separated ", " (gs.map fun g => g.name.doc) ++ text ">"

def FunctionName.doc (n : FunctionName) : Doc :=
  text (String.intercalate "." n.path)
    ++ (match n.method with
      | none => []
      | some m => text ":" ++ text m)

def Expr.isUnitStep (e : Expr) : Bool :=
  match e.asNumber? with
  | some n => n.equals (.ofNat 1)
  | none => false

variable (reg : Registry)

mutual

def Expr.doc : Expr → Doc
  | .literal v => v.doc
  | .symbol n => text n
  | .varArgs => text "..."
  | .binary l op r =>
      wrapIf (l.isWrappedUnder op .left) l.doc ++ text " " ++ text op.token ++ text " "
        ++ wrapIf (r.isWrappedUnder op .right) r.doc
  | .unary op e => text op.token ++ wrapIf (e.isWrappedAfter op) e.doc
  | .call c => c.doc
  | .function b => text "function" ++ b.doc
  | .table ⟨fs, p⟩ => table (fs.all TableField.isPositional) p (TableField.docs fs)
  | .interpolated ss => text "`" ++ (Segment.docs ss).flatten ++ text "`"
  | .assertion e t => wrapIf e.isWrappedInAssertion e.doc ++ text " :: " ++ t.doc
  | .ifElse c t bs e =>
      text "if " ++ c.doc ++ text " then " ++ t.doc ++ (ElseIfExpr.docs bs).flatten
        ++ text " else " ++ e.doc
  | .index t k => wrapIf (!t.isIndexable) t.doc ++ text "[" ++ k.doc ++ text "]"
  | .paren e => text "(" ++ e.doc ++ text ")"
  | .custom ⟨k, es⟩ => reg.customDoc k (Expr.docs es)

def Expr.docs : List Expr → List Doc
  | [] => []
  | e :: es => e.doc :: Expr.docs es

def Segment.doc : Segment → Doc
  | .text t => text t
  | .expr e => text "$\x7b" ++ e.doc ++ text "\x7d"

def Segment.docs : List Segment → List Doc
  | [] => []
  | s :: ss => s.doc :: Segment.docs ss

def ElseIfExpr.doc : ElseIfExpr → Doc
  | ⟨c, v⟩ => text " elseif " ++ c.doc ++ text " then " ++ v.doc

def ElseIfExpr.docs : List ElseIfExpr → List Doc
  | [] => []
  | b :: bs => b.doc :: ElseIfExpr.docs bs

def TableField.doc : TableField → Doc
  | .positional v => v.doc
  | .named k v => text k ++ text " = " ++ v.doc
  | .keyed k v => text "[" ++ k.doc ++ text "] = " ++ v.doc

def TableField.docs : List TableField → List Doc
  | [] => []
  | t :: ts => t.doc :: TableField.docs ts

def Call.doc : Call → Doc
  | ⟨h, ss⟩ => h.doc ++ (Suffix.docs ss).flatten

def CallHead.doc : CallHead → Doc
  | .name n => text n
  | .expr e => text "(" ++ e.doc ++ text ")"

def Suffix.doc : Suffix → Doc
  | .call as => text "(" ++ separated ", " (Expr.docs as) ++ text ")"
  | .method n as => text ":" ++ text n ++ text "(" ++ separated ", " (Expr.docs as) ++ text ")"
  | .dot n => text "." ++ text n
  | .brackets k => text "[" ++ k.doc ++ text "]"

def Suffix.docs : List Suffix → List Doc
  | [] => []
  | s :: ss => s.doc :: Suffix.docs ss

def FunctionBody.doc : FunctionBody → Doc
  | ⟨gs, ps, ts, r, b⟩ =>
      if ps.length ≠ ts.length then [.fail (.parameterTypes ps.length ts.length)]
      else
        Generics.namesDoc gs ++ text "("
          ++ separated ", " (List.zipWith (· ++ ·) (ps.map Parameter.doc) (Ty.annotationDocs ts))
          ++ text ")" ++ Ty.annotationDoc r ++ newline ++ nested (Stmt.blockDoc b)
          ++ indented "end"

def GenericParam.doc : GenericParam → Doc
  | ⟨n, b, d⟩ => n.doc ++ Ty.introducedDoc " extends " b ++ Ty.introducedDoc " = " d

def GenericParam.docs : List GenericParam → List Doc
  | [] => []
  | g :: gs => g.doc :: GenericParam.docs gs

def GenericParam.declDoc : Option (List GenericParam) → Doc
  | none | some [] => []
  | some (g :: gs) => text "<" ++ separated ", " (g.doc :: GenericParam.docs gs) ++ text ">"

def Ty.doc : Ty → Doc
  | .basic n => text n
  | .boolean b => Doc.boolean b
  | .string s => text (Text.quoted s)
  | .array t a => text "\x7b " ++ access a ++ t.doc ++ text " \x7d"
  | .table fs =>
      if fs.isEmpty then text "\x7b\x7d"
      else text "\x7b " ++ separated ", " (TypeField.docs fs) ++ text " \x7d"
  | .tuple ts r => text "(" ++ separated ", " (Ty.docs ts ++ Ty.restDoc r) ++ text ")"
  | .union ts => separated " | " (Ty.unionDocs ts)
  | .inter ts => separated " & " (Ty.interDocs ts)
  | .optional t => wrapIf t.isWrappedInOptional t.doc ++ text "?"
  | .callback gs as t =>
      Generics.namesDoc gs ++ text "(" ++ separated ", " (TypeArg.docs as) ++ text ") -> " ++ t.doc
  | .typeof e => text "typeof(" ++ e.doc ++ text ")"
  | .variadic t => text "..." ++ t.doc
  | .generic b ts => text b ++ text "<" ++ separated ", " (Ty.docs ts) ++ text ">"

def Ty.docs : List Ty → List Doc
  | [] => []
  | t :: ts => t.doc :: Ty.docs ts

def Ty.unionDocs : List Ty → List Doc
  | [] => []
  | t :: ts => wrapIf t.isWrappedInUnion t.doc :: Ty.unionDocs ts

def Ty.interDocs : List Ty → List Doc
  | [] => []
  | t :: ts => wrapIf t.isWrappedInInter t.doc :: Ty.interDocs ts

def Ty.restDoc : Option Ty → List Doc
  | none => []
  | some t => [text "..." ++ t.doc]

def Ty.introducedDoc (intro : String) : Option Ty → Doc
  | none => []
  | some t => text intro ++ t.doc

def Ty.annotationDoc : Option Ty → Doc
  | none => []
  | some t => text ": " ++ t.doc

def Ty.annotationDocs : List (Option Ty) → List Doc
  | [] => []
  | t :: ts => Ty.annotationDoc t :: Ty.annotationDocs ts

def Ty.localDocs : List (Option Ty) → List Doc
  | [] => []
  | none :: ts => [] :: Ty.localDocs ts
  | some t :: ts => (if t.isBasic then [] else text ": " ++ t.doc) :: Ty.localDocs ts

def TypeField.doc : TypeField → Doc
  | .named a k v => access a ++ text k ++ text ": " ++ v.doc
  | .indexed a k v => access a ++ text "[" ++ k.doc ++ text "]" ++ text ": " ++ v.doc

def TypeField.docs : List TypeField → List Doc
  | [] => []
  | t :: ts => t.doc :: TypeField.docs ts

def TypeArg.doc : TypeArg → Doc
  | ⟨none, t⟩ => t.doc
  | ⟨some n, t⟩ => text n ++ text ": " ++ t.doc

def TypeArg.docs : List TypeArg → List Doc
  | [] => []
  | a :: as => a.doc :: TypeArg.docs as

def Stmt.doc : Stmt → Doc
  | .assign ts op vs =>
      margin ++ text (if ts.head?.any Expr.startsWithParen then ";" else "")
        ++ separated ", " (Expr.docs ts) ++ text " " ++ text op.token ++ text " "
        ++ separated ", " (Expr.docs vs) ++ newline
  | .localDecl ns ts vs =>
      match ns, vs, Annotations.given ts with
      | [n], [.function b], false => indented "local function " ++ text n ++ b.doc ++ newline
      | ns, vs, _ =>
          indented "local " ++ separated ", " (annotated ns (Ty.localDocs ts))
            ++ (if vs.isEmpty then [] else text " = " ++ separated ", " (Expr.docs vs)) ++ newline
  | .function n b => indented "function " ++ n.doc ++ b.doc ++ newline
  | .ifThen c t bs e =>
      indented "if " ++ c.doc ++ text " then\n" ++ nested (Stmt.blockDoc t)
        ++ (ElseIf.docs bs).flatten ++ Stmt.elseDoc e ++ line "end"
  | .whileDo c b =>
      indented "while " ++ c.doc ++ text " do\n" ++ nested (Stmt.blockDoc b) ++ line "end"
  | .numericFor n a z s b =>
      indented "for " ++ text n ++ text " = " ++ a.doc ++ text ", " ++ z.doc ++ Expr.stepDoc s
        ++ text " do\n" ++ nested (Stmt.blockDoc b) ++ line "end"
  | .genericFor ns es b =>
      indented "for " ++ text (String.intercalate ", " ns) ++ text " in "
        ++ separated ", " (Expr.docs es) ++ text " do\n" ++ nested (Stmt.blockDoc b) ++ line "end"
  | .repeatUntil b c =>
      line "repeat" ++ nested (Stmt.blockDoc b) ++ indented "until "
        ++ (match c with
          | .unary .not (.unary .not e) => e.doc
          | c => c.doc)
        ++ newline
  | .doBlock b => line "do" ++ nested (Stmt.blockDoc b) ++ line "end"
  | .returns vs =>
      indented "return" ++ (if vs.isEmpty then [] else text " " ++ separated ", " (Expr.docs vs))
        ++ newline
  | .breakLoop => line "break"
  | .continueLoop => line "continue"
  | .goto l => line ("goto " ++ l)
  | .label n => line ("::" ++ n ++ "::")
  | .call ⟨.name n, ss⟩ => margin ++ text n ++ (Suffix.docs ss).flatten ++ newline
  | .call ⟨.expr e, ss⟩ =>
      margin ++ text ";" ++ text "(" ++ e.doc ++ text ")" ++ (Suffix.docs ss).flatten ++ newline
  | .typeDecl x n gs t =>
      indented (if x then "export type " else "type ") ++ text n ++ GenericParam.declDoc gs
        ++ text " = " ++ t.doc ++ newline
  | .comment t => comment t
  | .custom ⟨k, es⟩ => margin ++ reg.customDoc k (Expr.docs es) ++ newline

def Stmt.blockDoc : List Stmt → Doc
  | [] => []
  | s :: ss => s.doc ++ Stmt.blockDoc ss

def Stmt.elseDoc : Option (List Stmt) → Doc
  | none => []
  | some b => line "else" ++ nested (Stmt.blockDoc b)

def ElseIf.doc : ElseIf → Doc
  | ⟨c, b⟩ => indented "elseif " ++ c.doc ++ text " then\n" ++ nested (Stmt.blockDoc b)

def ElseIf.docs : List ElseIf → List Doc
  | [] => []
  | b :: bs => b.doc :: ElseIf.docs bs

def Expr.stepDoc : Option Expr → Doc
  | none => []
  | some e => if e.isUnitStep then [] else text ", " ++ e.doc

end

end LuauSyntax
