import LuauSyntax.Tree

namespace LuauSyntax

namespace FunctionName

def simple (name : String) : FunctionName := ⟨[name], none⟩

def ofMethod (path : List String) (method : String) : FunctionName := ⟨path, some method⟩

end FunctionName

namespace GenericParam

def single (name : String) : GenericParam := ⟨.single name, none, none⟩

def pack (name : String) : GenericParam := ⟨.pack name, none, none⟩

end GenericParam

def Generics.ofNames (names : List String) : Generics := names.map .single

namespace FunctionBody

def plain (parameters : List Parameter) (body : Block) : FunctionBody where
  generics := none
  parameters := parameters
  types := parameters.map fun _ => none
  returns := none
  body := body

def typed (parameters : List (Parameter × Ty)) (returns : Option Ty) (body : Block) :
    FunctionBody where
  generics := none
  parameters := parameters.map Prod.fst
  types := parameters.map fun p => some p.2
  returns := returns
  body := body

def withGenerics (b : FunctionBody) (generics : Generics) : FunctionBody :=
  { b with generics := some generics }

end FunctionBody

namespace Call

def named (name : String) (args : List Expr) : Call := ⟨.name name, [.call args]⟩

def onObject (object method : String) (args : List Expr) : Call :=
  ⟨.name object, [.method method args]⟩

def withSuffix (c : Call) (s : Suffix) : Call := { c with suffixes := c.suffixes ++ [s] }

end Call

namespace Table

def ofFields (fields : List TableField) : Table := ⟨fields, false⟩

def ofValues (values : List Expr) : Table := ofFields (values.map .positional)

def pad (t : Table) : Table := { t with padded := true }

end Table

namespace TypeField

def plain (key : String) (value : Ty) : TypeField := .named none key value

def indexer (key value : Ty) : TypeField := .indexed none key value

end TypeField

namespace Ty

def arrayOf (element : Ty) : Ty := .array element none

def tupleOf (elements : List Ty) : Ty := .tuple elements none

def arrow (args : List Ty) (result : Ty) : Ty := .callback none (args.map (⟨none, ·⟩)) result

end Ty

namespace Expr

def nil : Expr := .literal .nil

def boolean (b : Bool) : Expr := .literal (.boolean b)

def number (n : Number) : Expr := .literal (.number n)

def string (s : String) : Expr := .literal (.string s)

def not (e : Expr) : Expr := .unary .not e

def callNamed (name : String) (args : List Expr) : Expr := .call (.named name args)

def cond (condition thenValue elseValue : Expr) : Expr :=
  .ifElse condition thenValue [] elseValue

end Expr

namespace Stmt

def declare (name : String) (value : Expr) : Stmt := .localDecl [name] [] [value]

def declareTyped (name : String) (type : Ty) (value : Option Expr) : Stmt :=
  .localDecl [name] [some type] value.toList

def set (target value : Expr) : Stmt := .assign [target] .assign [value]

def update (target : Expr) (op : AssignOp) (value : Expr) : Stmt := .assign [target] op [value]

def branch (condition : Expr) (thenBlock : Block) (elseBlock : Option Block) : Stmt :=
  .ifThen condition thenBlock [] elseBlock

def callNamed (name : String) (args : List Expr) : Stmt := .call (.named name args)

def typeAlias (name : String) (type : Ty) : Stmt := .typeDecl false name none type

end Stmt

end LuauSyntax
