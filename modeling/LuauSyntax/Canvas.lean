namespace LuauSyntax

structure Canvas where
  unit : String
  depth : Nat := 0
  output : String := ""
deriving DecidableEq, Repr

inductive Edit where
  | push
  | pop
  | append (text : String)
  | indented (text : String)
  | line (text : String)
deriving DecidableEq, Repr

namespace Canvas

def ofUnit (unit : String) : Canvas := { unit }

def margin (c : Canvas) : String :=
  String.join (List.replicate c.depth c.unit)

def append (c : Canvas) (text : String) : Canvas :=
  { c with output := c.output ++ text }

def edit (c : Canvas) : Edit → Canvas
  | .push => { c with depth := c.depth + 1 }
  | .pop => { c with depth := c.depth - 1 }
  | .append t => c.append t
  | .indented t => (c.append c.margin).append t
  | .line t => ((c.append c.margin).append t).append "\n"

end Canvas

end LuauSyntax
