import LuauSyntax.Grouping
import LuauSyntax.Proofs.Node.Induction
import LuauSyntax.Proofs.Number.Short
import LuauSyntax.Proofs.Reading.Parser
import LuauSyntax.Transform

namespace LuauSyntax

def Transform.ungroup : Transform Id where
  rebuiltExpr := fun
    | .paren e => e
    | .literal (.number x) =>
        if x.isNegative then .unary .minus (.literal (.number x.abs)) else .literal (.number x)
    | .index t k => t.postfixed (.brackets k)
    | .call ⟨.name n, ss⟩ => ss.foldl Expr.postfixed (.symbol n)
    | .call ⟨.expr e, ss⟩ => ss.foldl Expr.postfixed e
    | e => e

def Expr.ungrouped (e : Expr) : Expr :=
  Id.run (e.transform .ungroup)

def Suffix.ungrouped (s : Suffix) : Suffix :=
  Id.run (s.transform .ungroup)

def ElseIfExpr.ungrouped (b : ElseIfExpr) : ElseIfExpr :=
  Id.run (b.transform .ungroup)

theorem Expr.transformAll_ungroup (es : List Expr) :
    Id.run (Expr.transformAll .ungroup es) = es.map ungrouped := by
  induction es with
  | nil => rfl
  | cons e es ih =>
      rw [List.map_cons, ← ih]
      rfl

theorem Suffix.transformAll_ungroup (ss : List Suffix) :
    Id.run (Suffix.transformAll .ungroup ss) = ss.map ungrouped := by
  induction ss with
  | nil => rfl
  | cons s ss ih =>
      rw [List.map_cons, ← ih]
      rfl

theorem ElseIfExpr.transformAll_ungroup (bs : List ElseIfExpr) :
    Id.run (ElseIfExpr.transformAll .ungroup bs) = bs.map ungrouped := by
  induction bs with
  | nil => rfl
  | cons b bs ih =>
      rw [List.map_cons, ← ih]
      rfl

theorem ElseIfExpr.ungrouped_eq (b : ElseIfExpr) :
    b.ungrouped = ⟨b.condition.ungrouped, b.value.ungrouped⟩ := by
  cases b
  rfl

namespace Expr

theorem ungrouped_number (x : Number) :
    (literal (.number x)).ungrouped =
      if x.isNegative then unary .minus (literal (.number x.abs)) else literal (.number x) := rfl

theorem ungrouped_index (t k : Expr) :
    (index t k).ungrouped = t.ungrouped.postfixed (.brackets k.ungrouped) := rfl

theorem ungrouped_ifElse (c t : Expr) (bs : List ElseIfExpr) (e : Expr) :
    (ifElse c t bs e).ungrouped =
      ifElse c.ungrouped t.ungrouped (bs.map ElseIfExpr.ungrouped) e.ungrouped := by
  rw [← ElseIfExpr.transformAll_ungroup]
  rfl

theorem ungrouped_call_name (n : String) (ss : List Suffix) :
    (call ⟨.name n, ss⟩).ungrouped = (ss.map Suffix.ungrouped).foldl postfixed (symbol n) := by
  rw [← Suffix.transformAll_ungroup]
  rfl

theorem ungrouped_call_expr (e : Expr) (ss : List Suffix) :
    (call ⟨.expr e, ss⟩).ungrouped = (ss.map Suffix.ungrouped).foldl postfixed e.ungrouped := by
  rw [← Suffix.transformAll_ungroup]
  rfl

end Expr

theorem Suffix.ungrouped_call (as : List Expr) :
    (Suffix.call as).ungrouped = .call (as.map Expr.ungrouped) := by
  rw [← Expr.transformAll_ungroup]
  rfl

theorem Suffix.ungrouped_method (n : String) (as : List Expr) :
    (Suffix.method n as).ungrouped = .method n (as.map Expr.ungrouped) := by
  rw [← Expr.transformAll_ungroup]
  rfl

theorem Suffix.ungrouped_brackets (k : Expr) :
    (Suffix.brackets k).ungrouped = .brackets k.ungrouped := rfl

def UnaryOp.reading : UnaryOp → Token
  | .not => .notKw
  | .minus => .op .minus
  | .length => .hash

def Token.wrapIf (wrap : Bool) (ts : List Token) : List Token :=
  if wrap then .parenOpen :: ts ++ [.parenClose] else ts

namespace Node

def isReadable : Node → Bool
  | .expr (.symbol n) => Token.isName n
  | .expr (.literal (.number x)) => x.isShort
  | .expr .varArgs | .expr (.binary ..) | .expr (.unary ..) | .expr (.call _) => true
  | .expr (.ifElse ..) | .expr (.index ..) | .expr (.paren _) => true
  | .elseIfExpr _ | .call _ | .args _ => true
  | .callHead (.name n) => Token.isName n
  | .callHead (.expr _) => true
  | .suffix (.call _) | .suffix (.brackets _) => true
  | .suffix (.method n _) | .suffix (.dot n) => Token.isName n
  | _ => false

def tokensAt (n : Node) (below : List (List Token)) : List Token :=
  match n, below with
  | .expr (.symbol n), _ => [.name n]
  | .expr (.literal (.number x)), _ =>
      (if x.isNegative then [.op .minus] else []) ++ [.number (x.natAbs?.getD 0)]
  | .expr .varArgs, _ => [.ellipsis]
  | .expr (.binary l op r), [ls, rs] =>
      Token.wrapIf (l.isWrappedUnder op .left) ls
        ++ .op op :: Token.wrapIf (r.isWrappedUnder op .right) rs
  | .expr (.unary op e), [es] => op.reading :: Token.wrapIf (e.isWrappedAfter op) es
  | .expr (.call _), [cs] => cs
  | .expr (.ifElse _ _ bs _), c :: t :: rest =>
      .ifKw :: c ++ .thenKw :: t ++ (rest.take bs.length).flatten
        ++ .elseKw :: (rest.drop bs.length).flatten
  | .expr (.index t _), [ts, ks] =>
      Token.wrapIf (!t.isIndexable) ts ++ .bracketOpen :: ks ++ [.bracketClose]
  | .expr (.paren _), [es] => Token.wrapIf true es
  | .elseIfExpr _, [cs, vs] => .elseifKw :: cs ++ .thenKw :: vs
  | .call _, parts => parts.flatten
  | .args _, es => .parenOpen :: List.intercalate [.comma] es ++ [.parenClose]
  | .callHead (.name n), _ => [.name n]
  | .callHead (.expr _), [es] => Token.wrapIf true es
  | .suffix (.call _), [as] => as
  | .suffix (.method n _), [as] => .colon :: .name n :: as
  | .suffix (.dot n), _ => [.dot, .name n]
  | .suffix (.brackets _), [ks] => .bracketOpen :: ks ++ [.bracketClose]
  | _, _ => []

def tokens : Node → List Token :=
  fold tokensAt

theorem tokens_binary (l : Expr) (op : BinaryOp) (r : Expr) :
    (expr (.binary l op r)).tokens = Token.wrapIf (l.isWrappedUnder op .left) (expr l).tokens
      ++ .op op :: Token.wrapIf (r.isWrappedUnder op .right) (expr r).tokens := rfl

theorem tokens_unary (op : UnaryOp) (e : Expr) :
    (expr (.unary op e)).tokens =
      op.reading :: Token.wrapIf (e.isWrappedAfter op) (expr e).tokens := rfl

theorem tokens_index (t k : Expr) :
    (expr (.index t k)).tokens = Token.wrapIf (!t.isIndexable) (expr t).tokens
      ++ .bracketOpen :: (expr k).tokens ++ [.bracketClose] := rfl

theorem tokens_ifElse (c t : Expr) (bs : List ElseIfExpr) (e : Expr) :
    (expr (.ifElse c t bs e)).tokens = .ifKw :: (expr c).tokens ++ .thenKw :: (expr t).tokens
      ++ bs.flatMap (fun b => (elseIfExpr b).tokens) ++ .elseKw :: (expr e).tokens := by
  rw [tokens, fold_eq]
  simp [tokensAt, children, Expr.children, List.flatMap_def, Function.comp_def]

theorem tokens_elseIfExpr (c v : Expr) :
    (elseIfExpr ⟨c, v⟩).tokens = .elseifKw :: (expr c).tokens ++ .thenKw :: (expr v).tokens := rfl

theorem tokens_call (h : CallHead) (ss : List Suffix) :
    (call ⟨h, ss⟩).tokens = (callHead h).tokens ++ ss.flatMap (fun s => (suffix s).tokens) := by
  rw [tokens, fold_eq]
  simp [tokensAt, children, Call.children, List.flatMap_def, Function.comp_def]

theorem tokens_args (as : List Expr) :
    (args as).tokens = .parenOpen :: List.intercalate [.comma] (as.map fun a => (expr a).tokens)
      ++ [.parenClose] := by
  rw [tokens, fold_eq]
  simp [tokensAt, children, ofExprs, Function.comp_def]

theorem tokens_brackets (k : Expr) :
    (suffix (.brackets k)).tokens = .bracketOpen :: (expr k).tokens ++ [.bracketClose] := rfl

theorem tokens_method (n : String) (as : List Expr) :
    (suffix (.method n as)).tokens = .colon :: .name n :: (args as).tokens := rfl

end Node

end LuauSyntax
