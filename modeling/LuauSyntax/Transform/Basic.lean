import LuauSyntax.Transform
import LuauSyntax.Number.Rounding

namespace LuauSyntax.Transform

def identity : Transform Id := {}

def rename (old new : String) : Transform Id where
  expr := fun
    | .symbol n => if n = old then .replace (.symbol new) else .descend
    | _ => .descend

def renameType (old new : String) : Transform Id where
  type := fun
    | .basic n => if n = old then .replace (.basic new) else .descend
    | _ => .descend

def invertIfs : Transform Id where
  rebuiltStmt := fun
    | .ifThen (.unary .not c) t [] (some e) => .ifThen c e [] (some t)
    | s => s

def oneBased : Transform Id where
  rebuiltExpr := fun
    | .index t k => .index t (.binary k .plus (.literal (.number (.ofNat 1))))
    | e => e

def swapBinary : Transform Id where
  rebuiltExpr := fun
    | .binary l op r => .binary r op l
    | e => e

def dropAnnotations : Transform Id where
  annotation := fun _ => .replace none

def dotToBrackets : Transform Id where
  suffix := fun
    | .dot n => .replace (.brackets (.literal (.string n)))
    | s => .replace s

def recording : Transform (StateM (List Node)) where
  stmt := fun s => modifyGet fun seen => (.descend, seen ++ [.stmt s])
  expr := fun e => modifyGet fun seen => (.descend, seen ++ [.expr e])
  type := fun t => modifyGet fun seen => (.descend, seen ++ [.type t])

end LuauSyntax.Transform
