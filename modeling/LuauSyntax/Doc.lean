import LuauSyntax.Canvas
import LuauSyntax.Violation

namespace LuauSyntax

inductive Piece where
  | edit (edit : Edit)
  | measured (text : Canvas → String)
  | custom (kind : String)
  | fail (violation : Violation)

abbrev Doc := List Piece

def Piece.draw (c : Canvas) : Piece → Canvas
  | .edit e => c.edit e
  | .measured text => c.append (text c)
  | .custom _ | .fail _ => c

namespace Doc

def text (t : String) : Doc := [.edit (.append t)]

def margin : Doc := [.edit (.indented "")]

def indented (t : String) : Doc := [.edit (.indented t)]

def line (t : String) : Doc := [.edit (.line t)]

def newline : Doc := text "\n"

def nested (d : Doc) : Doc := .edit .push :: d ++ [.edit .pop]

def wrapIf (wrap : Bool) (d : Doc) : Doc :=
  if wrap then text "(" ++ d ++ text ")" else d

def separated (separator : String) (ds : List Doc) : Doc :=
  List.intercalate (text separator) ds

def draw (d : Doc) (c : Canvas) : Canvas :=
  d.foldl Piece.draw c

def violation? : Doc → Option Violation
  | [] => none
  | .fail v :: _ => some v
  | _ :: d => violation? d

def customKinds : Doc → List String
  | [] => []
  | .fail _ :: _ => []
  | .custom k :: d => k :: customKinds d
  | _ :: d => customKinds d

theorem draw_append (d e : Doc) (c : Canvas) : draw (d ++ e) c = draw e (draw d c) :=
  List.foldl_append

theorem violation?_append (d e : Doc) : violation? (d ++ e) = (violation? d).or (violation? e) := by
  induction d with
  | nil => rfl
  | cons p d ih => cases p <;> simp [violation?, ih]

end Doc

end LuauSyntax
