import LuauSyntax.Number
import LuauSyntax.Operator

namespace LuauSyntax

inductive Literal where
  | nil
  | boolean (value : Bool)
  | number (value : Number)
  | string (value : String)
deriving DecidableEq, Repr

inductive Parameter where
  | name (name : String)
  | ellipsis
deriving DecidableEq, Repr

inductive GenericName where
  | single (name : String)
  | pack (name : String)
deriving DecidableEq, Repr

structure FunctionName where
  path : List String
  method : Option String
deriving DecidableEq, Repr

mutual

inductive Expr where
  | literal (value : Literal)
  | symbol (name : String)
  | varArgs
  | binary (left : Expr) (op : BinaryOp) (right : Expr)
  | unary (op : UnaryOp) (operand : Expr)
  | call (call : Call)
  | function (body : FunctionBody)
  | table (table : Table)
  | interpolated (segments : List Segment)
  | assertion (expr : Expr) (type : Ty)
  | ifElse (condition thenValue : Expr) (elseIfs : List ElseIfExpr) (elseValue : Expr)
  | index (target key : Expr)
  | paren (inner : Expr)
  | custom (node : Custom)

inductive Segment where
  | text (text : String)
  | expr (expr : Expr)

structure ElseIfExpr where
  condition : Expr
  value : Expr

structure Table where
  fields : List TableField
  padded : Bool

inductive TableField where
  | positional (value : Expr)
  | named (key : String) (value : Expr)
  | keyed (key value : Expr)

structure Custom where
  kind : String
  children : List Expr

structure Call where
  head : CallHead
  suffixes : List Suffix

inductive CallHead where
  | name (name : String)
  | expr (expr : Expr)

inductive Suffix where
  | call (args : List Expr)
  | method (name : String) (args : List Expr)
  | dot (name : String)
  | brackets (key : Expr)

/-- The types annotate the parameters by position, so both lists should be equally long. -/
structure FunctionBody where
  generics : Option (List GenericParam)
  parameters : List Parameter
  types : List (Option Ty)
  returns : Option Ty
  body : List Stmt

structure GenericParam where
  name : GenericName
  bound : Option Ty
  default : Option Ty

inductive Ty where
  | basic (name : String)
  | boolean (value : Bool)
  | string (value : String)
  | array (element : Ty) (access : Option Access)
  | table (fields : List TypeField)
  | tuple (elements : List Ty) (rest : Option Ty)
  | union (members : List Ty)
  | inter (members : List Ty)
  | optional (inner : Ty)
  | callback (generics : Option (List GenericParam)) (args : List TypeArg) (result : Ty)
  | typeof (expr : Expr)
  | variadic (inner : Ty)
  | generic (base : String) (args : List Ty)

inductive TypeField where
  | named (access : Option Access) (key : String) (value : Ty)
  | indexed (access : Option Access) (key value : Ty)

structure TypeArg where
  name : Option String
  type : Ty

inductive Stmt where
  | assign (targets : List Expr) (op : AssignOp) (values : List Expr)
  | localDecl (names : List String) (types : List (Option Ty)) (values : List Expr)
  | function (name : FunctionName) (body : FunctionBody)
  | ifThen (condition : Expr) (thenBlock : List Stmt) (elseIfs : List ElseIf)
      (elseBlock : Option (List Stmt))
  | whileDo (condition : Expr) (body : List Stmt)
  | numericFor (name : String) (start stop : Expr) (step : Option Expr) (body : List Stmt)
  | genericFor (names : List String) (exprs : List Expr) (body : List Stmt)
  | repeatUntil (body : List Stmt) (condition : Expr)
  | doBlock (body : List Stmt)
  | returns (values : List Expr)
  | breakLoop
  | continueLoop
  | goto (label : String)
  | label (name : String)
  | call (call : Call)
  | typeDecl (exported : Bool) (name : String) (generics : Option (List GenericParam)) (type : Ty)
  | comment (text : String)
  | custom (node : Custom)

structure ElseIf where
  condition : Expr
  block : List Stmt

end

abbrev Block := List Stmt

structure Chunk where
  block : Block

abbrev Generics := List GenericParam

abbrev Annotations := List (Option Ty)

instance : Inhabited Expr := ⟨.varArgs⟩
instance : Inhabited Stmt := ⟨.breakLoop⟩
instance : Inhabited Ty := ⟨.basic ""⟩

namespace Expr

def asNumber? : Expr → Option Number
  | .literal (.number n) => some n
  | _ => none

end Expr

def Ty.isBasic : Ty → Bool
  | .basic _ => true
  | _ => false

def TableField.isPositional : TableField → Bool
  | .positional _ => true
  | _ => false

def Table.isPositional (t : Table) : Bool :=
  t.fields.all TableField.isPositional

def Annotations.given (types : Annotations) : Bool :=
  types.any Option.isSome

end LuauSyntax
