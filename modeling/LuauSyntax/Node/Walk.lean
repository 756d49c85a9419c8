import LuauSyntax.Node.Fold

namespace LuauSyntax

inductive Stop where
  | node (node : Node)
  | stmtForm (stmt : Stmt)
  | exprForm (expr : Expr)

namespace Stop

def node? : Stop → Option Node
  | .node n => some n
  | _ => none

def symbol? : Stop → Option String
  | .exprForm (.symbol n) => some n
  | _ => none

def literal? : Stop → Option Literal
  | .exprForm (.literal v) => some v
  | _ => none

def call? : Stop → Option Call
  | .node (.call c) => some c
  | _ => none

def isLoop : Stop → Bool
  | .stmtForm (.whileDo ..) | .stmtForm (.numericFor ..) => true
  | .stmtForm (.genericFor ..) | .stmtForm (.repeatUntil ..) => true
  | _ => false

end Stop

namespace Node

def form? : Node → Option Stop
  | .stmt s => some (.stmtForm s)
  | .expr (.call _) => none
  | .expr e => some (.exprForm e)
  | _ => none

def walk (skip : Node → Bool) : Node → Nat → List (Nat × Stop) :=
  fold fun n below depth =>
    if skip n then []
    else
      match n.form? with
      | none => (depth, .node n) :: below.flatMap (· (depth + 1))
      | some form => (depth, .node n) :: (depth + 1, form) :: below.flatMap (· (depth + 2))

def stops (n : Node) : List Stop :=
  (n.walk (fun _ => false) 0).map Prod.snd

def symbols (n : Node) : List String :=
  n.stops.filterMap Stop.symbol?

def literals (n : Node) : List Literal :=
  n.stops.filterMap Stop.literal?

def calls (n : Node) : List Call :=
  n.stops.filterMap Stop.call?

def isFunctionBody : Node → Bool
  | .functionBody _ => true
  | _ => false

def loopCount (n : Node) : Nat :=
  ((n.walk isFunctionBody 0).map Prod.snd).countP Stop.isLoop

end Node

end LuauSyntax
