namespace LuauSyntax

inductive BinaryOp where
  | or
  | and
  | equal
  | notEqual
  | less
  | lessEqual
  | greater
  | greaterEqual
  | concat
  | plus
  | minus
  | star
  | slash
  | doubleSlash
  | percent
  | caret
deriving DecidableEq, Repr

namespace BinaryOp

def all : List BinaryOp :=
  [.or, .and, .equal, .notEqual, .less, .lessEqual, .greater, .greaterEqual, .concat, .plus,
    .minus, .star, .slash, .doubleSlash, .percent, .caret]

def token : BinaryOp → String
  | .or => "or"
  | .and => "and"
  | .equal => "=="
  | .notEqual => "~="
  | .less => "<"
  | .lessEqual => "<="
  | .greater => ">"
  | .greaterEqual => ">="
  | .concat => ".."
  | .plus => "+"
  | .minus => "-"
  | .star => "*"
  | .slash => "/"
  | .doubleSlash => "//"
  | .percent => "%"
  | .caret => "^"

def rank : BinaryOp → Nat
  | .or => 1
  | .and => 2
  | .equal | .notEqual => 3
  | .less | .lessEqual | .greater | .greaterEqual => 4
  | .concat => 5
  | .plus | .minus => 6
  | .star | .slash | .doubleSlash | .percent => 7
  | .caret => 8

def isRightAssoc : BinaryOp → Bool
  | .caret | .concat => true
  | _ => false

end BinaryOp

inductive UnaryOp where
  | not
  | minus
  | length
deriving DecidableEq, Repr

namespace UnaryOp

def rank : Nat := 9

def token : UnaryOp → String
  | .not => "not "
  | .minus => "-"
  | .length => "#"

end UnaryOp

inductive AssignOp where
  | assign
  | add
  | sub
  | mul
  | div
  | floorDiv
  | mod
  | pow
  | concat
deriving DecidableEq, Repr

def AssignOp.token : AssignOp → String
  | .assign => "="
  | .add => "+="
  | .sub => "-="
  | .mul => "*="
  | .div => "/="
  | .floorDiv => "//="
  | .mod => "%="
  | .pow => "^="
  | .concat => "..="

inductive Access where
  | read
  | write
deriving DecidableEq, Repr

def Access.token : Access → String
  | .read => "read"
  | .write => "write"

end LuauSyntax
