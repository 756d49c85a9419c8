namespace LuauSyntax

inductive Violation where
  | unhandled (kind : String)
  | parameterTypes (parameters types : Nat)
deriving DecidableEq, Repr

namespace Violation

def unregistered (kind : String) : Violation :=
  .unhandled ("Custom(" ++ kind ++ ")")

def message : Violation → String
  | .unhandled kind => "no renderer for node kind `" ++ kind ++ "`"
  | .parameterTypes ps ts =>
      "function body has " ++ Nat.repr ps ++ " parameters but " ++ Nat.repr ts
        ++ " type specifiers"

end Violation

end LuauSyntax
