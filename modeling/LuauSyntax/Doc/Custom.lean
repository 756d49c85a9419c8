import LuauSyntax.Doc

namespace LuauSyntax

abbrev CustomRenderer := String → List Doc → Doc

abbrev Registry := List (String × CustomRenderer)

namespace Registry

def register (reg : Registry) (kind : String) (r : CustomRenderer) : Registry :=
  (kind, r) :: reg

def ofList (entries : List (String × CustomRenderer)) : Registry :=
  entries.foldl (fun reg e => register reg e.1 e.2) []

def customDoc (reg : Registry) (kind : String) (children : List Doc) : Doc :=
  match List.lookup kind reg with
  | none => [.fail (.unregistered kind)]
  | some r => .custom kind :: r kind children

end Registry

namespace CustomRenderer

open Doc

def pair : CustomRenderer := fun _ ds =>
  text "pair(" ++ separated " .. " ds ++ text ")"

def switch : CustomRenderer := fun _ ds =>
  text "-- switch on " ++ ds.headD []

def lines : CustomRenderer := fun _ ds =>
  text "begin\n" ++ nested (ds.flatMap fun d => margin ++ d ++ newline) ++ indented "finish"

def info : CustomRenderer := fun kind _ =>
  [.measured fun c => "<" ++ kind ++ "|" ++ Nat.repr c.depth ++ "|" ++ c.margin ++ "|"
    ++ Nat.repr c.output.utf8ByteSize ++ ">"]

def dedent : CustomRenderer := fun kind _ =>
  .edit .pop :: line kind

end CustomRenderer

end LuauSyntax
