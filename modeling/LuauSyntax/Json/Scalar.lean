import LuauSyntax.Json
import LuauSyntax.Number.Hex
import LuauSyntax.Number.Rounding
import LuauSyntax.Printer

namespace LuauSyntax

def Number.toJson (x : Number) : Json := .str x.toHex

def Number.ofJson? : Json → Option Number
  | .num m places => some (ofDecimal (m < 0) m.natAbs (-places))
  | .str s => ofHex? s
  | _ => none

namespace BinaryOp

def name : BinaryOp → String
  | .or => "Or"
  | .and => "And"
  | .equal => "Equal"
  | .notEqual => "NotEqual"
  | .less => "Less"
  | .lessEqual => "LessEqual"
  | .greater => "Greater"
  | .greaterEqual => "GreaterEqual"
  | .concat => "Concat"
  | .plus => "Plus"
  | .minus => "Minus"
  | .star => "Star"
  | .slash => "Slash"
  | .doubleSlash => "DoubleSlash"
  | .percent => "Percent"
  | .caret => "Caret"

def toJson (op : BinaryOp) : Json := .str op.name

def ofJson? (j : Json) : Option BinaryOp :=
  j.name?.bind fun s => all.find? (·.name == s)

end BinaryOp

namespace UnaryOp

def name : UnaryOp → String
  | .not => "Not"
  | .minus => "Minus"
  | .length => "Length"

def toJson (op : UnaryOp) : Json := .str op.name

def ofJson? (j : Json) : Option UnaryOp :=
  j.name?.bind fun s => [.not, .minus, .length].find? fun op => op.name == s

end UnaryOp

namespace AssignOp

def name : AssignOp → String
  | .assign => "Assign"
  | .add => "Add"
  | .sub => "Sub"
  | .mul => "Mul"
  | .div => "Div"
  | .floorDiv => "FloorDiv"
  | .mod => "Mod"
  | .pow => "Pow"
  | .concat => "Concat"

def toJson (op : AssignOp) : Json := .str op.name

def ofJson? (j : Json) : Option AssignOp :=
  j.name?.bind fun s =>
    [.assign, .add, .sub, .mul, .div, .floorDiv, .mod, .pow, .concat].find? fun op => op.name == s

end AssignOp

namespace Access

def name : Access → String
  | .read => "Read"
  | .write => "Write"

def toJson (a : Access) : Json := .str a.name

def ofJson? (j : Json) : Option Access :=
  j.name?.bind fun s => [.read, .write].find? fun a => a.name == s

end Access

namespace Literal

def toJson : Literal → Json
  | .nil => .str "Nil"
  | .boolean b => .tagged "Boolean" (.bool b)
  | .number n => .tagged "Number" n.toJson
  | .string s => .tagged "String" (.str s)

def ofJson? (j : Json) : Option Literal := do
  match ← j.variant? with
  | ("Nil", .null) => return .nil
  | ("Boolean", j) => return .boolean (← j.bool?)
  | ("Number", j) => return .number (← Number.ofJson? j)
  | ("String", j) => return .string (← j.str?)
  | _ => none

end Literal

namespace Parameter

def toJson : Parameter → Json
  | .name n => .tagged "Name" (.str n)
  | .ellipsis => .str "Ellipsis"

def ofJson? (j : Json) : Option Parameter := do
  match ← j.variant? with
  | ("Name", j) => return .name (← j.str?)
  | ("Ellipsis", .null) => return .ellipsis
  | _ => none

end Parameter

namespace GenericName

def toJson : GenericName → Json
  | .single n => .tagged "Name" (.str n)
  | .pack n => .tagged "Variadic" (.str n)

def ofJson? (j : Json) : Option GenericName := do
  match ← j.variant? with
  | ("Name", j) => return .single (← j.str?)
  | ("Variadic", j) => return .pack (← j.str?)
  | _ => none

end GenericName

namespace FunctionName

def toJson (n : FunctionName) : Json :=
  .obj [("path", .ofList .str n.path), ("method", .ofOption .str n.method)]

def ofJson? (j : Json) : Option FunctionName := do
  return ⟨← (← j.field? "path").list? Json.str?, ← (← j.field? "method").option? Json.str?⟩

end FunctionName

namespace Style

def toJson (s : Style) : Json :=
  .obj [("indent", .str s.indent), ("trailing_newline", .bool s.trailingNewline)]

def ofJson? : Json → Option Style
  | .obj fields => do
      let indent ← match List.lookup "indent" fields with
        | none => some ({} : Style).indent
        | some j => j.str?
      let trailingNewline ← match List.lookup "trailing_newline" fields with
        | none => some ({} : Style).trailingNewline
        | some j => j.bool?
      return { indent, trailingNewline }
  | _ => none

end Style

def Event.toJson (e : Event) : Json :=
  .obj [("level", .str e.level.name), ("message", .str e.message),
    match e with
    | .started n => ("statements", .ofNat n)
    | .custom k => ("kind", .str k)
    | .finished n => ("bytes", .ofNat n)
    | .aborted v => ("violation", .str v)]

end LuauSyntax
