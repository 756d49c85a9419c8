import LuauSyntax.Number.Rounding
import LuauSyntax.Proofs.Reading.Token
import LuauSyntax.Tree

namespace LuauSyntax

/-- How tightly binary operators bind, from one up, and which of them group to the right. A unary
operator binds tighter than all of them except those at the level of `^`. -/
structure Precedence where
  level : BinaryOp → Nat
  rightAssoc : BinaryOp → Bool

namespace Precedence

def ranks : Precedence := ⟨BinaryOp.rank, BinaryOp.isRightAssoc⟩

def luau : Precedence where
  level
    | .or => 1
    | .and => 2
    | .equal | .notEqual | .less | .lessEqual | .greater | .greaterEqual => 3
    | .concat => 4
    | .plus | .minus => 5
    | .star | .slash | .doubleSlash | .percent => 6
    | .caret => 7
  rightAssoc
    | .concat | .caret => true
    | _ => false

def limit (p : Precedence) (op : BinaryOp) : Nat :=
  if p.rightAssoc op then p.level op - 1 else p.level op

def unaryLimit (p : Precedence) : Nat :=
  p.level .caret - 1

end Precedence

def Expr.postfixed (e : Expr) (s : Suffix) : Expr :=
  match e with
  | .symbol n => .call ⟨.name n, [s]⟩
  | .call ⟨h, ss⟩ => .call ⟨h, ss ++ [s]⟩
  | e => .call ⟨.expr e, [s]⟩

def Suffix.ofArgs : Option String → List Expr → Suffix
  | none, as => .call as
  | some n, as => .method n as

def Expr.ofBranches : List ElseIfExpr → Expr → Expr
  | [], e => e
  | ⟨c, t⟩ :: bs, e => .ifElse c t bs e

namespace Reading

inductive Frame where
  | unary (op : UnaryOp)
  | binary (left : Expr) (op : BinaryOp)
  | paren
  | key (target : Expr)
  | args (target : Expr) (method : Option String) (done : List Expr)
  | condition (done : List ElseIfExpr)
  | value (done : List ElseIfExpr) (condition : Expr)
  | otherwise (branches : List ElseIfExpr)

inductive Focus where
  | operand
  | after (value : Expr) (isOpen : Bool)
  | field (target : Expr)
  | method (target : Expr)
  | arguments (target : Expr) (method : String)

structure State where
  stack : List Frame
  focus : Focus

def Frame.limit? (p : Precedence) : Frame → Option Nat
  | .unary _ => some p.unaryLimit
  | .binary _ op => some (p.limit op)
  | .otherwise _ => some 0
  | _ => none

def Frame.complete (f : Frame) (v : Expr) : Expr :=
  match f with
  | .unary op => .unary op v
  | .binary l op => .binary l op v
  | .otherwise bs => .ofBranches bs v
  | _ => v

def close (p : Precedence) (level : Nat) : List Frame → Expr → List Frame × Expr
  | [], v => ([], v)
  | f :: fs, v =>
      if (f.limit? p).any (level ≤ ·) then close p level fs (f.complete v) else (f :: fs, v)

def level (p : Precedence) : Token → Nat
  | .op op => p.level op
  | _ => 0

def operand (fs : List Frame) : Token → Option State
  | .name n => some ⟨fs, .after (.symbol n) true⟩
  | .number n => some ⟨fs, .after (.literal (.number (.ofNat n))) false⟩
  | .ellipsis => some ⟨fs, .after .varArgs false⟩
  | .op .minus => some ⟨.unary .minus :: fs, .operand⟩
  | .notKw => some ⟨.unary .not :: fs, .operand⟩
  | .hash => some ⟨.unary .length :: fs, .operand⟩
  | .ifKw => some ⟨.condition [] :: fs, .operand⟩
  | .parenOpen => some ⟨.paren :: fs, .operand⟩
  | .parenClose =>
      match fs with
      | .args t m [] :: fs => some ⟨fs, .after (t.postfixed (.ofArgs m [])) true⟩
      | _ => none
  | _ => none

def continued : List Frame × Expr → Token → Option State
  | (fs, v), .op op => some ⟨.binary v op :: fs, .operand⟩
  | (.paren :: fs, v), .parenClose => some ⟨fs, .after v true⟩
  | (.args t m as :: fs, v), .parenClose =>
      some ⟨fs, .after (t.postfixed (.ofArgs m (as ++ [v]))) true⟩
  | (.args t m as :: fs, v), .comma => some ⟨.args t m (as ++ [v]) :: fs, .operand⟩
  | (.key t :: fs, v), .bracketClose => some ⟨fs, .after (t.postfixed (.brackets v)) true⟩
  | (.condition bs :: fs, v), .thenKw => some ⟨.value bs v :: fs, .operand⟩
  | (.value bs c :: fs, v), .elseifKw => some ⟨.condition (bs ++ [⟨c, v⟩]) :: fs, .operand⟩
  | (.value bs c :: fs, v), .elseKw => some ⟨.otherwise (bs ++ [⟨c, v⟩]) :: fs, .operand⟩
  | _, _ => none

def isPostfix : Token → Bool
  | .parenOpen | .bracketOpen | .dot | .colon => true
  | _ => false

def suffixed (fs : List Frame) (v : Expr) : Token → Option State
  | .parenOpen => some ⟨.args v none [] :: fs, .operand⟩
  | .bracketOpen => some ⟨.key v :: fs, .operand⟩
  | .dot => some ⟨fs, .field v⟩
  | .colon => some ⟨fs, .method v⟩
  | _ => none

def step (p : Precedence) : State → Token → Option State
  | ⟨fs, .operand⟩, t => operand fs t
  | ⟨fs, .after v isOpen⟩, t =>
      if isPostfix t then (if isOpen then suffixed fs v t else none)
      else continued (close p (level p t) fs v) t
  | ⟨fs, .field v⟩, .name n => some ⟨fs, .after (v.postfixed (.dot n)) true⟩
  | ⟨fs, .method v⟩, .name n => some ⟨fs, .arguments v n⟩
  | ⟨fs, .arguments v n⟩, .parenOpen => some ⟨.args v (some n) [] :: fs, .operand⟩
  | _, _ => none

def finish (p : Precedence) : State → Option Expr
  | ⟨fs, .after v _⟩ =>
      match close p 0 fs v with
      | ([], v) => some v
      | _ => none
  | _ => none

def run (p : Precedence) (s : State) (ts : List Token) : Option Expr :=
  (ts.foldlM (step p) s).bind (finish p)

def read (p : Precedence) (text : String) : Option Expr :=
  run p ⟨[], .operand⟩ (Token.scan text.toList)

variable {p : Precedence}

theorem run_cons (s : State) (t : Token) (ts : List Token) :
    run p s (t :: ts) = (step p s t).bind fun s => run p s ts := by
  unfold run
  rw [List.foldlM_cons]
  cases step p s t <;> rfl

theorem run_of_step {s s' : State} {t : Token} (h : step p s t = some s') (ts : List Token) :
    run p s (t :: ts) = run p s' ts := by
  rw [run_cons, h]
  rfl

def Closes (p : Precedence) (k : Nat) (ts : List Token) : Prop :=
  ∀ t ∈ ts.head?, level p t ≤ k ∧ isPostfix t = false

theorem Closes.cons {k : Nat} {t : Token} {ts : List Token} (hlevel : level p t ≤ k)
    (hsuffix : isPostfix t = false) : Closes p k (t :: ts) := by
  intro u hu
  have heq : t = u := by simpa using hu
  rw [← heq]
  exact ⟨hlevel, hsuffix⟩

theorem close_of_le {f : Frame} {k l : Nat} (hf : f.limit? p = some k) (hl : l ≤ k)
    (fs : List Frame) (v : Expr) : close p l (f :: fs) v = close p l fs (f.complete v) := by
  simp [close, hf, hl]

theorem close_of_forall_lt {fs : List Frame} {l : Nat}
    (h : ∀ f ∈ fs.head?, ∀ k ∈ f.limit? p, k < l) (v : Expr) : close p l fs v = (fs, v) := by
  cases fs with
  | nil => rfl
  | cons f fs =>
      have hf : (f.limit? p).any (l ≤ ·) = false := by
        rw [Option.any_eq_false]
        intro k hk
        simpa using h f rfl k hk
      simp [close, hf]

theorem run_complete {f : Frame} {k : Nat} (hf : f.limit? p = some k) {ts : List Token}
    (hts : Closes p k ts) (fs : List Frame) (v : Expr) (isOpen : Bool) :
    run p ⟨f :: fs, .after v isOpen⟩ ts = run p ⟨fs, .after (f.complete v) false⟩ ts := by
  cases ts with
  | nil => simp [run, finish, close_of_le hf]
  | cons t ts =>
      obtain ⟨hlevel, hsuffix⟩ := hts t rfl
      rw [run_cons, run_cons]
      simp [step, hsuffix, close_of_le hf hlevel]

end Reading

end LuauSyntax
