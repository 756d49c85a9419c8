import LuauSyntax.Tree

namespace LuauSyntax

inductive Side where
  | left
  | right
deriving DecidableEq, Repr

def BinaryOp.wraps (parent child : BinaryOp) (side : Side) : Bool :=
  if child.rank = parent.rank then
    match side with
    | .left => parent.isRightAssoc
    | .right => !parent.isRightAssoc
  else child.rank < parent.rank

namespace Expr

/-- Whether an operand of a binary operator is wrapped. An `if` or a function reaches as far right
as it can, so it always is; a sign before `^` would otherwise apply to the whole power. -/
def isWrappedUnder (parent : BinaryOp) (side : Side) : Expr → Bool
  | .binary _ child _ => parent.wraps child side
  | .unary .. => parent = .caret && side = .left
  | .literal (.number n) => parent = .caret && side = .left && n.isNegative
  | .ifElse .. | .function _ => true
  | _ => false

/-- Whether the operand of a unary operator is wrapped. Two signs in a row would open a comment. -/
def isWrappedAfter (op : UnaryOp) : Expr → Bool
  | .binary .. | .ifElse .. => true
  | .unary inner _ => op = .minus && inner = .minus
  | .literal (.number n) => op = .minus && n.isNegative
  | _ => false

def isIndexable : Expr → Bool
  | .symbol _ | .call _ | .index .. | .paren _ => true
  | _ => false

def isWrappedInAssertion : Expr → Bool
  | .call _ | .binary .. | .unary .. | .ifElse .. => true
  | _ => false

def startsWithParen : Expr → Bool
  | .paren _ => true
  | .call ⟨.expr _, _⟩ => true
  | .index t _ => !t.isIndexable || t.startsWithParen
  | .binary l op _ => l.isWrappedUnder op .left || l.startsWithParen
  | .assertion e _ => e.isWrappedInAssertion || e.startsWithParen
  | _ => false

end Expr

namespace Ty

def isWrappedInUnion : Ty → Bool
  | .callback .. => true
  | _ => false

def isWrappedInInter : Ty → Bool
  | .union _ | .callback .. => true
  | _ => false

def isWrappedInOptional : Ty → Bool
  | .union _ | .inter _ | .tuple .. | .callback .. => true
  | _ => false

end Ty

end LuauSyntax
