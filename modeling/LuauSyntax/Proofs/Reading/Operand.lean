import LuauSyntax.Proofs.Reading.Ungrouped

namespace LuauSyntax

open Reading

variable {p : Precedence}

theorem Reading.step_reading (op : UnaryOp) (fs : List Frame) :
    step p ⟨fs, .operand⟩ op.reading = some ⟨.unary op :: fs, .operand⟩ := by
  cases op <;> rfl

theorem Reading.step_op {op : BinaryOp} {fs : List Frame}
    (h : ∀ f ∈ fs.head?, ∀ k ∈ f.limit? p, k < p.level op) (v : Expr) (isOpen : Bool) :
    step p ⟨fs, .after v isOpen⟩ (.op op) = some ⟨.binary v op :: fs, .operand⟩ := by
  change continued (close p (p.level op) fs v) (.op op) = _
  rw [close_of_forall_lt h]
  rfl

namespace Expr

def edge (p : Precedence) : Expr → Nat
  | .binary _ op _ => p.limit op
  | .unary .. => p.unaryLimit
  | .literal (.number x) => if x.isNegative then p.unaryLimit else p.level .caret
  | .ifElse .. => 0
  | _ => p.level .caret

def Exceeds (p : Precedence) (k : Nat) : Expr → Prop
  | .binary _ op _ => k < p.level op
  | _ => True

def Begins (p : Precedence) (e : Expr) (fs : List Frame) : Prop :=
  ∀ f ∈ fs.head?, ∀ k ∈ f.limit? p, e.Exceeds p k

def Ends (p : Precedence) (e : Expr) (ts : List Token) : Prop :=
  ∀ t ∈ ts.head?, level p t ≤ e.edge p ∧ (isPostfix t = true → e.isIndexable = true)

def ReadsAs (p : Precedence) (e v : Expr) : Prop :=
  ∀ fs ts, e.Begins p fs → e.Ends p ts →
    run p ⟨fs, .operand⟩ ((Node.expr e).tokens ++ ts) = run p ⟨fs, .after v e.isIndexable⟩ ts

theorem begins_cons {e : Expr} {f : Frame} {fs : List Frame}
    (h : ∀ k ∈ f.limit? p, e.Exceeds p k) : e.Begins p (f :: fs) := by
  intro g hg
  have heq : f = g := by simpa using hg
  exact heq ▸ h

theorem ends_of_closes {e : Expr} {ts : List Token} {k : Nat} (h : Closes p k ts)
    (hk : k ≤ e.edge p) : e.Ends p ts := by
  intro t ht
  obtain ⟨hlevel, hsuffix⟩ := h t ht
  exact ⟨Nat.le_trans hlevel hk, by simp [hsuffix]⟩

theorem Ends.closes {e : Expr} {ts : List Token} (h : e.Ends p ts)
    (hopen : e.isIndexable = false) : Closes p (e.edge p) ts := by
  intro t ht
  obtain ⟨hlevel, hsuffix⟩ := h t ht
  exact ⟨hlevel, by simpa [hopen] using hsuffix⟩

theorem fits_unary {e : Expr} {op : UnaryOp} (h : e.isWrappedAfter op = false) :
    p.unaryLimit ≤ e.edge p ∧ e.Exceeds p p.unaryLimit := by
  have hle : p.unaryLimit ≤ p.level .caret := Nat.sub_le _ _
  cases e with
  | binary _ _ _ => simp [isWrappedAfter] at h
  | ifElse _ _ _ _ => simp [isWrappedAfter] at h
  | unary _ _ => exact ⟨Nat.le_refl _, trivial⟩
  | literal v =>
      refine ⟨?_, trivial⟩
      cases v with
      | number x => cases hx : x.isNegative <;> simp [edge, hx, hle]
      | _ => exact hle
  | _ => exact ⟨hle, trivial⟩

namespace ReadsAs

variable {e v : Expr}

theorem delimited (h : e.ReadsAs p v) {f : Frame} (hf : f.limit? p = none) (fs : List Frame)
    {t : Token} (hlevel : level p t = 0) (hsuffix : isPostfix t = false) (ts : List Token) :
    run p ⟨f :: fs, .operand⟩ ((Node.expr e).tokens ++ t :: ts) =
      run p ⟨f :: fs, .after v e.isIndexable⟩ (t :: ts) := by
  apply h
  · exact begins_cons (by simp [hf])
  · exact ends_of_closes (k := 0) (.cons (Nat.le_of_eq hlevel) hsuffix) (Nat.zero_le _)

theorem wrapped (h : e.ReadsAs p v) (fs : List Frame) (ts : List Token) :
    run p ⟨fs, .operand⟩ (Token.wrapIf true (Node.expr e).tokens ++ ts) =
      run p ⟨fs, .after v true⟩ ts := by
  have hopen : step p ⟨fs, .operand⟩ .parenOpen = some ⟨.paren :: fs, .operand⟩ := rfl
  have hclose : step p ⟨.paren :: fs, .after v e.isIndexable⟩ .parenClose =
      some ⟨fs, .after v true⟩ := rfl
  calc run p ⟨fs, .operand⟩ (Token.wrapIf true (Node.expr e).tokens ++ ts)
      = run p ⟨fs, .operand⟩ (.parenOpen :: ((Node.expr e).tokens ++ .parenClose :: ts)) := by
        simp [Token.wrapIf]
    _ = run p ⟨.paren :: fs, .operand⟩ ((Node.expr e).tokens ++ .parenClose :: ts) :=
        run_of_step hopen _
    _ = run p ⟨.paren :: fs, .after v e.isIndexable⟩ (.parenClose :: ts) :=
        h.delimited rfl fs rfl rfl ts
    _ = run p ⟨fs, .after v true⟩ ts := run_of_step hclose _

theorem operand (h : e.ReadsAs p v) {wrapped : Bool} {fs : List Frame} {ts : List Token}
    (hbegins : wrapped = false → e.Begins p fs) (hends : wrapped = false → e.Ends p ts) :
    run p ⟨fs, .operand⟩ (Token.wrapIf wrapped (Node.expr e).tokens ++ ts) =
      run p ⟨fs, .after v (wrapped || e.isIndexable)⟩ ts := by
  cases wrapped with
  | false => exact h fs ts (hbegins rfl) (hends rfl)
  | true => exact h.wrapped fs ts

variable {l r w : Expr} {op : BinaryOp}

theorem left (hl : l.ReadsAs p v)
    (hleft : l.isWrappedUnder op .left = false →
      p.level op ≤ l.edge p ∧ ∀ k < p.level op, l.Exceeds p k)
    {fs : List Frame} (hfs : ∀ f ∈ fs.head?, ∀ k ∈ f.limit? p, k < p.level op) (ts : List Token) :
    run p ⟨fs, .operand⟩
        (Token.wrapIf (l.isWrappedUnder op .left) (Node.expr l).tokens ++ .op op :: ts) =
      run p ⟨.binary v op :: fs, .operand⟩ ts := by
  rw [hl.operand, run_of_step (step_op hfs _ _)]
  · exact fun hw f hf k hk => (hleft hw).2 k (hfs f hf k hk)
  · exact fun hw => ends_of_closes (.cons (Nat.le_refl _) rfl) (hleft hw).1

theorem right (hr : r.ReadsAs p w)
    (hright : r.isWrappedUnder op .right = false →
      p.limit op ≤ r.edge p ∧ r.Exceeds p (p.limit op))
    {ts : List Token} (hcloses : Closes p (p.limit op) ts) (fs : List Frame) (v : Expr) :
    run p ⟨.binary v op :: fs, .operand⟩
        (Token.wrapIf (r.isWrappedUnder op .right) (Node.expr r).tokens ++ ts) =
      run p ⟨fs, .after (.binary v op w) false⟩ ts := by
  rw [hr.operand, run_complete rfl hcloses]
  · rfl
  · exact fun hw => begins_cons (by simpa [Frame.limit?] using (hright hw).2)
  · exact fun hw => ends_of_closes hcloses (hright hw).1

theorem binary (hl : l.ReadsAs p v) (hr : r.ReadsAs p w)
    (hleft : l.isWrappedUnder op .left = false →
      p.level op ≤ l.edge p ∧ ∀ k < p.level op, l.Exceeds p k)
    (hright : r.isWrappedUnder op .right = false →
      p.limit op ≤ r.edge p ∧ r.Exceeds p (p.limit op)) :
    (Expr.binary l op r).ReadsAs p (.binary v op w) := by
  intro fs ts hbegins hends
  have hcloses : Closes p (p.limit op) ts := hends.closes rfl
  rw [Node.tokens_binary, List.append_assoc, List.cons_append, hl.left hleft hbegins,
    hr.right hright hcloses]
  rfl

theorem unary {op : UnaryOp} (he : e.ReadsAs p v) : (Expr.unary op e).ReadsAs p (.unary op v) := by
  intro fs ts _ hends
  have hcloses : Closes p p.unaryLimit ts := hends.closes rfl
  rw [Node.tokens_unary, List.cons_append, run_of_step (step_reading op fs), he.operand,
    run_complete rfl hcloses]
  · rfl
  · exact fun hw => begins_cons (by simpa [Frame.limit?] using (fits_unary hw).2)
  · exact fun hw => ends_of_closes hcloses (fits_unary hw).1

end ReadsAs

end Expr

end LuauSyntax
