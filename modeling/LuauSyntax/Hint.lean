import LuauSyntax.Equality
import LuauSyntax.Transform.Basic

namespace LuauSyntax

def Stmt.isComment : Stmt → Bool
  | .comment _ => true
  | _ => false

def Transform.strip : Transform Id where
  keep := fun s => !s.isComment
  rebuiltExpr := fun
    | .table t => .table { t with padded := false }
    | e => e

open Transform

def Chunk.sameStructure (c c' : Chunk) : Bool :=
  (c.transform strip).equals (c'.transform strip)

def Block.sameStructure (b b' : Block) : Bool :=
  Stmt.equalAll (Stmt.transformBlock strip b) (Stmt.transformBlock strip b')

def Stmt.sameStructure (s s' : Stmt) : Bool :=
  Stmt.equals (s.transform strip) (s'.transform strip)

def Expr.sameStructure (e e' : Expr) : Bool :=
  Expr.equals (e.transform strip) (e'.transform strip)

end LuauSyntax
