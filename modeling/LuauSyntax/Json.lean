namespace LuauSyntax

/-- A number is `mantissa / 10 ^ places`. -/
inductive Json where
  | null
  | bool (value : Bool)
  | num (mantissa : Int) (places : Nat)
  | str (value : String)
  | arr (items : List Json)
  | obj (fields : List (String × Json))
deriving Inhabited

namespace Json

mutual

def depth : Json → Nat
  | .null | .bool _ | .num .. | .str _ => 0
  | .arr items => listDepth items + 1
  | .obj fields => fieldsDepth fields + 1

def listDepth : List Json → Nat
  | [] => 0
  | j :: js => max j.depth (listDepth js)

def fieldsDepth : List (String × Json) → Nat
  | [] => 0
  | (_, j) :: fs => max j.depth (fieldsDepth fs)

end

def ofNat (n : Nat) : Json := .num (Int.ofNat n) 0

def tagged (name : String) (payload : Json) : Json := .obj [(name, payload)]

def wrapped (key : String) (items : List Json) : Json := .obj [(key, .arr items)]

def ofOption {α : Type} (write : α → Json) : Option α → Json
  | none => .null
  | some a => write a

def ofList {α : Type} (write : α → Json) (as : List α) : Json := .arr (as.map write)

def bool? : Json → Option Bool
  | .bool b => some b
  | _ => none

def str? : Json → Option String
  | .str s => some s
  | _ => none

def nat? : Json → Option Nat
  | .num (.ofNat n) 0 => if n < UInt64.size then some n else none
  | _ => none

def option? {α : Type} (read : Json → Option α) : Json → Option (Option α)
  | .null => some none
  | j => (read j).map some

def list? {α : Type} (read : Json → Option α) : Json → Option (List α)
  | .arr items => items.mapM read
  | _ => none

def field? (j : Json) (key : String) : Option Json :=
  match j with
  | .obj fields => some ((List.lookup key fields).getD .null)
  | _ => none

def variant? : Json → Option (String × Json)
  | .str name => some (name, .null)
  | .obj [(name, payload)] => some (name, payload)
  | _ => none

def name? (j : Json) : Option String :=
  match j.variant? with
  | some (name, .null) => some name
  | _ => none

end Json

end LuauSyntax
