import LuauSyntax.Proofs.Reading.RoundTrip

namespace LuauSyntax

open Reading

namespace BinaryOp

def isEquality : BinaryOp → Bool
  | .equal | .notEqual => true
  | _ => false

def isComparison : BinaryOp → Bool
  | .less | .lessEqual | .greater | .greaterEqual => true
  | _ => false

theorem isEquality_eq (op : BinaryOp) : op.isEquality = (op.rank == 3) := by
  cases op <;> rfl

theorem isComparison_eq (op : BinaryOp) : op.isComparison = (op.rank == 4) := by
  cases op <;> rfl

theorem isEquality_of_limit_eq {op : BinaryOp} (h : Precedence.ranks.limit op = 3) :
    op.isEquality = true := by
  revert h
  cases op <;> decide

theorem not_isComparison_of_isEquality {op : BinaryOp} (h : op.isEquality = true) :
    op.isComparison = false := by
  have hrank : op.rank = 3 := by simpa [isEquality_eq] using h
  simp [isComparison_eq, hrank]

theorem not_isEquality_of_isComparison {op : BinaryOp} (h : op.isComparison = true) :
    op.isEquality = false := by
  have hrank : op.rank = 4 := by simpa [isComparison_eq] using h
  simp [isEquality_eq, hrank]

end BinaryOp

namespace Precedence

def merged (k : Nat) : Nat :=
  if k ≤ 3 then k else k - 1

theorem merged_le {j k : Nat} (h : j ≤ k) : merged j ≤ merged k := by
  unfold merged
  split <;> split <;> omega

theorem merged_lt {j k : Nat} (h : j < k) (hne : ¬(j = 3 ∧ k = 4)) : merged j < merged k := by
  unfold merged
  split <;> split <;> omega

theorem luau_level (op : BinaryOp) : luau.level op = merged op.rank := by
  cases op <;> rfl

theorem luau_limit (op : BinaryOp) : luau.limit op = merged (ranks.limit op) := by
  cases op <;> rfl

theorem luau_of_relation {op : BinaryOp} (h : (op.isEquality || op.isComparison) = true) :
    luau.level op = 3 ∧ luau.limit op = 3 := by
  revert h
  cases op <;> decide

end Precedence

namespace Expr

def isComparison : Expr → Bool
  | .binary _ op _ => op.isComparison
  | _ => false

theorem edge_luau (e : Expr) : e.edge .luau = Precedence.merged (e.edge .ranks) := by
  cases e with
  | binary l op r => exact Precedence.luau_limit op
  | literal v =>
      cases v with
      | number x => cases hx : x.isNegative <;> simp only [edge, hx] <;> rfl
      | _ => rfl
  | _ => rfl

theorem fits_left_luau {l : Expr} {op : BinaryOp} (h : l.isWrappedUnder op .left = false) :
    Precedence.luau.level op ≤ l.edge .luau ∧
      ∀ k < Precedence.luau.level op, l.Exceeds .luau k := by
  obtain ⟨hedge, -⟩ := fits_left h
  refine ⟨?_, ?_⟩
  · rw [Precedence.luau_level, edge_luau]
    exact Precedence.merged_le hedge
  · intro k hk
    cases l with
    | binary l' child r' =>
        have hrank : op.rank ≤ child.rank := (BinaryOp.wraps_left h).1
        rw [Precedence.luau_level] at hk
        change k < Precedence.luau.level child
        rw [Precedence.luau_level]
        exact Nat.lt_of_lt_of_le hk (Precedence.merged_le hrank)
    | _ => trivial

theorem fits_right_luau {r : Expr} {op : BinaryOp} (h : r.isWrappedUnder op .right = false)
    (hrelation : op.isEquality = true → r.isComparison = false) :
    Precedence.luau.limit op ≤ r.edge .luau ∧ r.Exceeds .luau (Precedence.luau.limit op) := by
  obtain ⟨hedge, hexceeds⟩ := fits_right h
  rw [Precedence.luau_limit, edge_luau]
  refine ⟨Precedence.merged_le hedge, ?_⟩
  cases r with
  | binary l' child r' =>
      change _ < Precedence.luau.level child
      rw [Precedence.luau_level]
      apply Precedence.merged_lt hexceeds
      rintro ⟨hop, hchild⟩
      have hcomparison := hrelation (BinaryOp.isEquality_of_limit_eq hop)
      have hrank : child.rank = 4 := hchild
      simp [isComparison, BinaryOp.isComparison_eq, hrank] at hcomparison
  | _ => trivial

def joined : Option (Expr × BinaryOp) → Expr → Expr
  | none, e => e
  | some (l, op), e => .binary l op e

/-- The tree that the text of an expression is read as to the right of an operand and an equality
that wait for it. A comparison takes them into its left operand. -/
def regroupedAfter (waiting : Option (Expr × BinaryOp)) : Expr → Expr
  | .binary l op r =>
      if op.isComparison then .binary (l.regroupedAfter waiting) op (r.regroupedAfter none)
      else if op.isEquality then
        joined waiting (r.regroupedAfter (some (l.regroupedAfter none, op)))
      else joined waiting (.binary (l.regroupedAfter none) op (r.regroupedAfter none))
  | .unary op e => joined waiting (.unary op (e.regroupedAfter none))
  | e => joined waiting e

def regrouped (e : Expr) : Expr :=
  e.regroupedAfter none

def keepsRelations : Expr → Bool
  | .binary l op r =>
      !(op.isEquality && r.isComparison) && l.keepsRelations && r.keepsRelations
  | .unary _ e => e.keepsRelations
  | _ => true

theorem regroupedAfter_some {e : Expr} (h : e.isComparison = false) (l : Expr) (op : BinaryOp) :
    e.regroupedAfter (some (l, op)) = .binary l op e.regrouped := by
  cases e with
  | binary l' op' r' =>
      have hop : op'.isComparison = false := h
      unfold regrouped regroupedAfter
      simp only [hop, Bool.false_eq_true, if_false]
      split <;> rfl
  | _ => rfl

theorem regroupedAfter_comparison {op : BinaryOp} (hop : op.isComparison = true)
    (waiting : Option (Expr × BinaryOp)) (l r : Expr) :
    (binary l op r).regroupedAfter waiting =
      .binary (l.regroupedAfter waiting) op r.regrouped := by
  rw [regroupedAfter, if_pos hop]
  rfl

theorem regrouped_equality {op : BinaryOp} (hop : op.isEquality = true) (l r : Expr) :
    (binary l op r).regrouped = r.regroupedAfter (some (l.regrouped, op)) := by
  have hcomparison := BinaryOp.not_isComparison_of_isEquality hop
  rw [regrouped, regroupedAfter, if_neg (by simp [hcomparison]), if_pos hop]
  rfl

theorem regrouped_binary {op : BinaryOp} (h : op.isEquality = false) (l r : Expr) :
    (binary l op r).regrouped = .binary l.regrouped op r.regrouped := by
  rw [regrouped, regroupedAfter, h]
  simp [joined, regrouped]

theorem regrouped_unary (op : UnaryOp) (e : Expr) :
    (unary op e).regrouped = .unary op e.regrouped := rfl

theorem isWrappedUnder_right_of_isComparison {e : Expr} {op : BinaryOp}
    (he : e.isComparison = true) (hop : op.isEquality = true) :
    e.isWrappedUnder op .right = false := by
  cases e with
  | binary l child r =>
      have hchild : child.rank = 4 := by
        simpa [isComparison, BinaryOp.isComparison_eq] using he
      have hrank : op.rank = 3 := by simpa [BinaryOp.isEquality_eq] using hop
      simp [isWrappedUnder, BinaryOp.wraps, hchild, hrank]
  | _ => simp [isComparison] at he

theorem isWrappedUnder_left_of_isComparison {e : Expr} {op : BinaryOp}
    (he : e.isComparison = true) (hop : op.isComparison = true) :
    e.isWrappedUnder op .left = false := by
  cases e with
  | binary l child r =>
      have hchild : child.rank = 4 := by
        simpa [isComparison, BinaryOp.isComparison_eq] using he
      have hrank : op.rank = 4 := by simpa [BinaryOp.isComparison_eq] using hop
      simp [isWrappedUnder, BinaryOp.wraps, hchild, hrank, BinaryOp.isRightAssoc_eq]
  | _ => simp [isComparison] at he

theorem isWrappedUnder_of_rank_lt {e : Expr} {op op' : BinaryOp}
    (h : e.isWrappedUnder op .left = false) (hlt : op'.rank < op.rank) :
    e.isWrappedUnder op' .right = false := by
  cases e with
  | binary l child r =>
      have hrank : op.rank ≤ child.rank := (BinaryOp.wraps_left h).1
      have hne : child.rank ≠ op'.rank := by omega
      simp only [isWrappedUnder, BinaryOp.wraps, if_neg hne, decide_eq_false_iff_not]
      omega
  | literal v => cases v <;> simp [isWrappedUnder]
  | _ => simp_all [isWrappedUnder]

structure Regroups (e : Expr) : Prop where
  alone : e.ReadsAs .luau e.regrouped
  after : ∀ {l : Expr} {op : BinaryOp} {fs : List Frame} {ts : List Token}, op.isEquality = true →
    e.isWrappedUnder op .right = false → (∀ f ∈ fs.head?, ∀ k ∈ f.limit? .luau, k < 3) →
    Closes .luau 3 ts →
    run .luau ⟨.binary l op :: fs, .operand⟩ ((Node.expr e).tokens ++ ts) =
      run .luau ⟨fs, .after (e.regroupedAfter (some (l, op))) false⟩ ts

namespace Regroups

variable {e l r : Expr} {op : BinaryOp}

theorem of_not_isComparison (h : e.ReadsAs .luau e.regrouped)
    (hcomparison : e.isComparison = false) : e.Regroups := by
  refine ⟨h, ?_⟩
  intro l op fs ts hop hwrapped _ hcloses
  obtain ⟨-, hlimit⟩ := Precedence.luau_of_relation (Bool.or_eq_true_iff.mpr (.inl hop))
  obtain ⟨hedge, hexceeds⟩ := fits_right_luau hwrapped fun _ => hcomparison
  have hbegins : e.Begins .luau (.binary l op :: fs) :=
    begins_cons (by simpa [Frame.limit?] using hexceeds)
  have hends : e.Ends .luau ts := ends_of_closes hcloses (hlimit ▸ hedge)
  have hframe : (Frame.binary l op).limit? .luau = some 3 := congrArg some hlimit
  rw [h _ _ hbegins hends, run_complete hframe hcloses, regroupedAfter_some hcomparison]
  rfl

theorem operand (h : e.Regroups) (hop : op.isEquality = true) {wrapped : Bool}
    (hopen : wrapped = false → e.isWrappedUnder op .right = false)
    (hwrapped : e.isComparison = true → wrapped = false) {fs : List Frame} {ts : List Token}
    (hfs : ∀ f ∈ fs.head?, ∀ k ∈ f.limit? .luau, k < 3) (hcloses : Closes .luau 3 ts) (l : Expr) :
    run .luau ⟨.binary l op :: fs, .operand⟩ (Token.wrapIf wrapped (Node.expr e).tokens ++ ts) =
      run .luau ⟨fs, .after (e.regroupedAfter (some (l, op))) false⟩ ts := by
  cases wrapped with
  | false => exact h.after hop (hopen rfl) hfs hcloses
  | true =>
      have hcomparison : e.isComparison = false := by simpa using hwrapped
      obtain ⟨-, hlimit⟩ := Precedence.luau_of_relation (Bool.or_eq_true_iff.mpr (.inl hop))
      have hframe : (Frame.binary l op).limit? .luau = some 3 := congrArg some hlimit
      rw [h.alone.wrapped, run_complete hframe hcloses, regroupedAfter_some hcomparison]
      rfl

theorem comparison (hop : op.isComparison = true) (hl : l.Regroups) (hr : r.Regroups) :
    (binary l op r).Regroups := by
  have hequality := BinaryOp.not_isEquality_of_isComparison hop
  have hright : r.isWrappedUnder op .right = false →
      Precedence.luau.limit op ≤ r.edge .luau ∧ r.Exceeds .luau (Precedence.luau.limit op) :=
    fun hw => fits_right_luau hw (by simp [hequality])
  refine ⟨?_, ?_⟩
  · rw [regrouped_binary hequality]
    exact hl.alone.binary hr.alone fits_left_luau hright
  · intro l' op' fs ts hop' _ hfs hcloses
    obtain ⟨hlevel, hlimit⟩ := Precedence.luau_of_relation (Bool.or_eq_true_iff.mpr (.inr hop))
    have hlt : op'.rank < op.rank := by
      simp_all [BinaryOp.isEquality_eq, BinaryOp.isComparison_eq]
    -- The comparison closes the equality before it, which goes into its left operand.
    rw [Node.tokens_binary, List.append_assoc, List.cons_append,
      hl.operand hop' (fun hw => isWrappedUnder_of_rank_lt hw hlt)
        (fun hl => isWrappedUnder_left_of_isComparison hl hop) hfs
        (.cons (t := .op op) (Nat.le_of_eq hlevel) rfl),
      run_of_step (step_op (hlevel ▸ hfs) _ _), hr.alone.right hright (hlimit ▸ hcloses),
      regroupedAfter_comparison hop]

theorem equality (hop : op.isEquality = true) (hl : l.Regroups) (hr : r.Regroups) :
    (binary l op r).Regroups := by
  obtain ⟨hlevel, hlimit⟩ := Precedence.luau_of_relation (Bool.or_eq_true_iff.mpr (.inl hop))
  apply of_not_isComparison
  · intro fs ts hbegins hends
    have hfs : ∀ f ∈ fs.head?, ∀ k ∈ f.limit? .luau, k < 3 := hlevel ▸ hbegins
    have hcloses : Closes .luau 3 ts := hlimit ▸ hends.closes rfl
    rw [Node.tokens_binary, List.append_assoc, List.cons_append,
      hl.alone.left fits_left_luau hbegins, hr.operand hop id
        (fun hr => isWrappedUnder_right_of_isComparison hr hop) hfs hcloses,
      regrouped_equality hop]
    rfl
  · exact BinaryOp.not_isComparison_of_isEquality hop

theorem binary (hl : l.Regroups) (hr : r.Regroups) : (Expr.binary l op r).Regroups := by
  cases hcomparison : op.isComparison with
  | true => exact comparison hcomparison hl hr
  | false =>
      cases hequality : op.isEquality with
      | true => exact equality hequality hl hr
      | false =>
          refine of_not_isComparison ?_ (e := .binary l op r) hcomparison
          rw [regrouped_binary hequality]
          exact hl.alone.binary hr.alone fits_left_luau fun hw =>
            fits_right_luau hw (by simp [hequality])

end Regroups

inductive Operation : Expr → Prop
  | symbol {n : String} (h : Token.isName n = true) : Operation (.symbol n)
  | binary {l r : Expr} {op : BinaryOp} (hl : Operation l) (hr : Operation r) :
      Operation (.binary l op r)
  | unary {e : Expr} {op : UnaryOp} (he : Operation e) : Operation (.unary op e)

theorem Operation.readable {e : Expr} (h : e.Operation) : (Node.expr e).Readable := by
  induction h with
  | symbol hn => exact .of_children hn (by simp [Node.children, Expr.children])
  | binary _ _ ihl ihr =>
      exact .of_children rfl (by simp [Node.children, Expr.children, ihl, ihr])
  | unary _ ih => exact .of_children rfl (by simp [Node.children, Expr.children, ih])

theorem Operation.regroups {e : Expr} (h : e.Operation) : e.Regroups := by
  induction h with
  | @symbol n hn =>
      apply Regroups.of_not_isComparison _ rfl
      intro fs ts _ _
      have hname : step .luau ⟨fs, .operand⟩ (.name n) = some ⟨fs, .after (.symbol n) true⟩ := rfl
      exact run_of_step hname ts
  | binary _ _ ihl ihr => exact ihl.binary ihr
  | unary _ ih => exact .of_not_isComparison ih.alone.unary rfl

theorem Operation.regrouped_eq_iff {e : Expr} (h : e.Operation) :
    e.regrouped = e ↔ e.keepsRelations = true := by
  induction h with
  | symbol _ => simp [regrouped, regroupedAfter, joined, keepsRelations]
  | @binary l r op _ _ ihl ihr =>
      cases hequality : op.isEquality with
      | false => simp [regrouped_binary hequality, keepsRelations, hequality, ihl, ihr]
      | true =>
          rw [regrouped_equality hequality]
          cases hr : r.isComparison with
          | false =>
              simp [regroupedAfter_some hr, keepsRelations, hr, ihl, ihr]
          | true =>
              have hne : (r.regroupedAfter (some (l.regrouped, op))) ≠ .binary l op r := by
                intro heq
                cases r with
                | binary l' op' r' =>
                    rw [regroupedAfter_comparison hr] at heq
                    injection heq with _ hop
                    simp [← hop, BinaryOp.not_isEquality_of_isComparison hr] at hequality
                | _ => simp [isComparison] at hr
              simp [hne, keepsRelations, hequality, hr]
  | unary _ ih => simp [regrouped_unary, keepsRelations, ih]

end Expr

theorem Printer.read_luau_printExpr (p : Printer) (e : Expr) (h : e.Operation) :
    ∃ text, p.printExpr e = .ok text ∧ read .luau text = some e.regrouped ∧
      (read .luau text = some e ↔ e.keepsRelations = true) := by
  obtain ⟨text, hprint, hread⟩ := p.exists_read_of_readsAs h.readable h.regroups.alone
  refine ⟨text, hprint, hread, ?_⟩
  rw [hread, Option.some_inj]
  exact h.regrouped_eq_iff

theorem Printer.read_luau_printExpr_kept :
    ∃ text, Printer.printExpr {}
        (.binary (.binary (.binary (.symbol "a") .less (.symbol "b")) .equal
          (.binary (.symbol "c") .equal (.symbol "d"))) .and
          (.unary .minus (.binary (.symbol "e") .caret (.symbol "f")))) = .ok text ∧
      read .luau text = some
        (.binary (.binary (.binary (.symbol "a") .less (.symbol "b")) .equal
          (.binary (.symbol "c") .equal (.symbol "d"))) .and
          (.unary .minus (.binary (.symbol "e") .caret (.symbol "f")))) := by
  have hrelation : Expr.Operation (.binary (.binary (.symbol "a") .less (.symbol "b")) .equal
      (.binary (.symbol "c") .equal (.symbol "d"))) :=
    .binary (.binary (.symbol rfl) (.symbol rfl)) (.binary (.symbol rfl) (.symbol rfl))
  have hpower : Expr.Operation (.unary .minus (.binary (.symbol "e") .caret (.symbol "f"))) :=
    .unary (.binary (.symbol rfl) (.symbol rfl))
  obtain ⟨text, hprint, -, hiff⟩ := Printer.read_luau_printExpr {} _ (.binary hrelation hpower)
  exact ⟨text, hprint, hiff.mpr rfl⟩

theorem Printer.read_luau_equal_less :
    Printer.printExpr {} (.binary (.symbol "a") .equal
        (.binary (.symbol "b") .less (.symbol "c"))) = .ok "a == b < c" ∧
      read .luau "a == b < c" =
        some (.binary (.binary (.symbol "a") .equal (.symbol "b")) .less (.symbol "c")) ∧
      read .luau "a == b < c" ≠ some (.binary (.symbol "a") .equal
        (.binary (.symbol "b") .less (.symbol "c"))) := by
  have h : Expr.Operation (.binary (.symbol "a") .equal
      (.binary (.symbol "b") .less (.symbol "c"))) :=
    .binary (.symbol rfl) (.binary (.symbol rfl) (.symbol rfl))
  obtain ⟨text, hprint, hregrouped⟩ := Printer.exists_read_of_readsAs {} h.readable h.regroups.alone
  have htext : "a == b < c" = text := Except.ok.inj hprint
  have hread : read .luau "a == b < c" =
      some (.binary (.binary (.symbol "a") .equal (.symbol "b")) .less (.symbol "c")) :=
    htext ▸ hregrouped
  exact ⟨htext ▸ hprint, hread, by simp [hread]⟩

end LuauSyntax
