import LuauSyntax.Number.Rounding
import LuauSyntax.Tree.Build

namespace LuauSyntax

inductive Wrap where
  | paren
  | minus
  | not
  | leftPlus
  | rightPlus
  | leftCaret
  | rightCaret
  | indexTarget
  | index
  | call
  | array
  | table
  | function
  | assert
  | ifElse
deriving DecidableEq, Repr

namespace Wrap

def apply (w : Wrap) (e : Expr) : Expr :=
  let x : Expr := .symbol "x"
  match w with
  | .paren => .paren e
  | .minus => .unary .minus e
  | .not => .not e
  | .leftPlus => .binary e .plus x
  | .rightPlus => .binary x .plus e
  | .leftCaret => .binary e .caret x
  | .rightCaret => .binary x .caret e
  | .indexTarget => .index e x
  | .index => .index x e
  | .call => .callNamed "f" [e]
  | .array => .table (.ofValues [e])
  | .table => .table (.ofFields [.named "k" e])
  | .function => .function (.plain [] [.returns [e]])
  | .assert => .assertion e (.basic "T")
  | .ifElse => .cond x e x

end Wrap

namespace Sample

def nest (wraps : List Wrap) (depth : Nat) (seed : Expr) : Expr :=
  (List.range depth).foldl
    (fun e i =>
      match wraps[i % wraps.length]? with
      | some w => w.apply e
      | none => e)
    seed

def method (index : Nat) : Stmt :=
  let num (n : Nat) : Expr := .number (.ofNat n)
  let i : Expr := .symbol "i"
  let accumulate : Stmt :=
    .update (.symbol "total") .add (.binary (.binary i .plus (num index)) .star (num 2))
  let body : Stmt :=
    .branch (.binary (.binary i .percent (num 2)) .equal (num 0)) [accumulate]
      (some [.continueLoop])
  let result : Expr :=
    .table (.ofFields [.named "total" (.symbol "total"),
      .named "label" (.string ("method " ++ Nat.repr index))])
  .function (.ofMethod ["Module"] ("run" ++ Nat.repr index))
    (.typed [(.name "count", .basic "number")] (some (.basic "Result"))
      [.declare "total" (num 0), .numericFor "i" (num 1) (.symbol "count") none [body],
        .returns [result]])

def chunk (functions : Nat) : Chunk := ⟨(List.range functions).map method⟩

end Sample

end LuauSyntax
