import LuauSyntax.Proofs.Reading.Operand
import LuauSyntax.Proofs.Reading.Printed

namespace LuauSyntax

open Reading

namespace BinaryOp

theorem rank_pos (op : BinaryOp) : 0 < op.rank := by
  cases op <;> decide

theorem rank_le (op : BinaryOp) : op.rank ≤ 8 := by
  cases op <;> decide

theorem rank_le_of_ne_caret {op : BinaryOp} (h : op ≠ .caret) : op.rank ≤ 7 := by
  cases op <;> first | decide | exact absurd rfl h

theorem isRightAssoc_eq (op : BinaryOp) :
    op.isRightAssoc = (op.rank == 5 || op.rank == 8) := by
  cases op <;> rfl

theorem isRightAssoc_eq_of_rank_eq {op op' : BinaryOp} (h : op.rank = op'.rank) :
    op.isRightAssoc = op'.isRightAssoc := by
  rw [isRightAssoc_eq, isRightAssoc_eq, h]

theorem limit_le_rank (op : BinaryOp) : Precedence.ranks.limit op ≤ op.rank := by
  unfold Precedence.limit
  split
  · exact Nat.sub_le _ _
  · exact Nat.le_refl _

theorem rank_le_limit_add_one (op : BinaryOp) : op.rank ≤ Precedence.ranks.limit op + 1 := by
  have h : Precedence.ranks.level op = op.rank := rfl
  unfold Precedence.limit
  split <;> omega

theorem wraps_left {op child : BinaryOp} (h : op.wraps child .left = false) :
    op.rank ≤ child.rank ∧ op.rank ≤ Precedence.ranks.limit child := by
  have hlevel : Precedence.ranks.level child = child.rank := rfl
  unfold wraps at h
  split at h
  · rename_i heq
    have hassoc : Precedence.ranks.rightAssoc child = false := by
      rw [← h]
      exact isRightAssoc_eq_of_rank_eq heq
    rw [Precedence.limit, hassoc, if_neg Bool.false_ne_true, hlevel]
    omega
  · rename_i hne
    have hle : op.rank ≤ child.rank := by simpa using h
    have hlimit := child.rank_le_limit_add_one
    omega

theorem wraps_right {op child : BinaryOp} (h : op.wraps child .right = false) :
    Precedence.ranks.limit op < child.rank ∧
      Precedence.ranks.limit op ≤ Precedence.ranks.limit child := by
  have hlimit := child.rank_le_limit_add_one
  have hpos := op.rank_pos
  unfold wraps at h
  split at h
  · rename_i heq
    have hassoc : op.isRightAssoc = true := by simpa using h
    have hop : Precedence.ranks.limit op = op.rank - 1 := if_pos hassoc
    omega
  · rename_i hne
    have hle : op.rank ≤ child.rank := by simpa using h
    have hop := op.limit_le_rank
    omega

end BinaryOp

namespace Expr

theorem fits_left {l : Expr} {op : BinaryOp} (h : l.isWrappedUnder op .left = false) :
    op.rank ≤ l.edge .ranks ∧ ∀ k < op.rank, l.Exceeds .ranks k := by
  have hle : op.rank ≤ BinaryOp.rank .caret := op.rank_le
  have hcaret : op ≠ .caret → op.rank ≤ Precedence.ranks.unaryLimit :=
    BinaryOp.rank_le_of_ne_caret
  cases l with
  | binary l' child r' =>
      obtain ⟨hrank, hlimit⟩ := BinaryOp.wraps_left h
      exact ⟨hlimit, fun k hk => Nat.lt_of_lt_of_le hk hrank⟩
  | unary _ _ => exact ⟨hcaret (by simpa [isWrappedUnder] using h), fun _ _ => trivial⟩
  | literal v =>
      refine ⟨?_, fun _ _ => trivial⟩
      cases v with
      | number x =>
          cases hx : x.isNegative with
          | false => exact Nat.le_trans hle (by simp [edge, hx, Precedence.ranks])
          | true => simpa [edge, hx] using hcaret (by simpa [isWrappedUnder, hx] using h)
      | _ => exact hle
  | ifElse _ _ _ _ => simp [isWrappedUnder] at h
  | _ => exact ⟨hle, fun _ _ => trivial⟩

theorem fits_right {r : Expr} {op : BinaryOp} (h : r.isWrappedUnder op .right = false) :
    Precedence.ranks.limit op ≤ r.edge .ranks ∧ r.Exceeds .ranks (Precedence.ranks.limit op) := by
  have hunary : Precedence.ranks.limit op ≤ Precedence.ranks.unaryLimit := by
    cases op <;> decide
  have hle : Precedence.ranks.limit op ≤ Precedence.ranks.level .caret :=
    Nat.le_trans op.limit_le_rank op.rank_le
  cases r with
  | binary l' child r' =>
      obtain ⟨hrank, hlimit⟩ := BinaryOp.wraps_right h
      exact ⟨hlimit, hrank⟩
  | unary _ _ => exact ⟨hunary, trivial⟩
  | literal v =>
      refine ⟨?_, trivial⟩
      cases v with
      | number x =>
          cases hx : x.isNegative with
          | false => simpa [edge, hx] using hle
          | true => simpa [edge, hx] using hunary
      | _ => exact hle
  | ifElse _ _ _ _ => simp [isWrappedUnder] at h
  | _ => exact ⟨hle, trivial⟩

end Expr

def CallHead.ungrouped : CallHead → Expr
  | .name n => .symbol n
  | .expr e => e.ungrouped

def Node.Reads : Node → Prop
  | .expr e => e.ReadsAs .ranks e.ungrouped
  | .elseIfExpr b => ∀ bs c fs v isOpen ts, Closes .ranks 0 ts →
      run .ranks ⟨.value bs c :: fs, .after v isOpen⟩ ((Node.elseIfExpr b).tokens ++ ts) =
        run .ranks ⟨.value (bs ++ [⟨c, v⟩]) b.condition.ungrouped :: fs,
          .after b.value.ungrouped b.value.isIndexable⟩ ts
  | .call c => ∀ fs ts, run .ranks ⟨fs, .operand⟩ ((Node.call c).tokens ++ ts) =
      run .ranks ⟨fs, .after (Expr.call c).ungrouped true⟩ ts
  | .callHead h => ∀ fs ts, run .ranks ⟨fs, .operand⟩ ((Node.callHead h).tokens ++ ts) =
      run .ranks ⟨fs, .after h.ungrouped true⟩ ts
  | .args as => ∀ s t m fs ts, step .ranks s .parenOpen = some ⟨.args t m [] :: fs, .operand⟩ →
      run .ranks s ((Node.args as).tokens ++ ts) =
        run .ranks ⟨fs, .after (t.postfixed (.ofArgs m (as.map Expr.ungrouped))) true⟩ ts
  | .suffix s => ∀ fs v ts, run .ranks ⟨fs, .after v true⟩ ((Node.suffix s).tokens ++ ts) =
      run .ranks ⟨fs, .after (v.postfixed s.ungrouped) true⟩ ts
  | _ => True

theorem Expr.reads_number {x : Number} (hx : x.isShort = true) :
    (Expr.literal (.number x)).ReadsAs .ranks (Expr.literal (.number x)).ungrouped := by
  intro fs ts _ hends
  obtain ⟨n, hn, hlt, -⟩ := Number.text_of_isShort hx
  have hnumber (gs : List Frame) : step .ranks ⟨gs, .operand⟩ (.number n) =
      some ⟨gs, .after (.literal (.number x.abs)) false⟩ := by
    rw [← Number.ofNat_natAbs hn hlt]
    rfl
  have htokens : (Node.expr (.literal (.number x))).tokens =
      (if x.isNegative then [.op .minus] else []) ++ [.number n] := by
    change _ ++ [Token.number (x.natAbs?.getD 0)] = _
    rw [hn]
    rfl
  have hclosed := hends.closes rfl
  rw [htokens, ungrouped_number]
  cases hneg : x.isNegative with
  | false =>
      have hrun := run_of_step (hnumber fs) ts
      rw [Number.abs_of_not_isNegative hneg] at hrun
      exact hrun
  | true =>
      -- The sign is an operator of its own, which the next token completes.
      have hcloses : Closes .ranks Precedence.ranks.unaryLimit ts := by
        simpa [edge, hneg] using hclosed
      have hsign : step .ranks ⟨fs, .operand⟩ (.op .minus) =
          some ⟨.unary .minus :: fs, .operand⟩ := rfl
      have hrun := run_of_step hsign (.number n :: ts)
      rw [run_of_step (hnumber _), run_complete rfl hcloses] at hrun
      exact hrun

theorem reads_brackets {k : Expr} (hk : k.ReadsAs .ranks k.ungrouped) (fs : List Frame) (v : Expr)
    (ts : List Token) :
    run .ranks ⟨fs, .after v true⟩ (.bracketOpen :: (Node.expr k).tokens ++ .bracketClose :: ts) =
      run .ranks ⟨fs, .after (v.postfixed (.brackets k.ungrouped)) true⟩ ts := by
  have hopen : step .ranks ⟨fs, .after v true⟩ .bracketOpen = some ⟨.key v :: fs, .operand⟩ := rfl
  have hclose : step .ranks ⟨.key v :: fs, .after k.ungrouped k.isIndexable⟩ .bracketClose =
      some ⟨fs, .after (v.postfixed (.brackets k.ungrouped)) true⟩ := rfl
  rw [List.cons_append, run_of_step hopen, hk.delimited rfl fs rfl rfl, run_of_step hclose]

theorem Expr.exceeds_of_isIndexable {p : Precedence} {e : Expr} (h : e.isIndexable = true)
    (k : Nat) : e.Exceeds p k := by
  cases e with
  | binary _ _ _ => simp [isIndexable] at h
  | _ => trivial

theorem Expr.reads_index {t k : Expr} (ht : t.ReadsAs .ranks t.ungrouped)
    (hk : k.ReadsAs .ranks k.ungrouped) :
    (Expr.index t k).ReadsAs .ranks (Expr.index t k).ungrouped := by
  intro fs ts _ _
  have htarget : run .ranks ⟨fs, .operand⟩ (Token.wrapIf (!t.isIndexable) (Node.expr t).tokens
      ++ (.bracketOpen :: (Node.expr k).tokens ++ .bracketClose :: ts)) =
        run .ranks ⟨fs, .after t.ungrouped (!t.isIndexable || t.isIndexable)⟩
          (.bracketOpen :: (Node.expr k).tokens ++ .bracketClose :: ts) := by
    apply ht.operand
    · exact fun hw f _ k _ => exceeds_of_isIndexable (by simpa using hw) k
    · intro hw u hu
      have heq : Token.bracketOpen = u := by simpa using hu
      exact heq ▸ ⟨Nat.zero_le _, fun _ => by simpa using hw⟩
  rw [Bool.not_or_self, reads_brackets hk] at htarget
  rw [Node.tokens_index, ungrouped_index]
  simpa [isIndexable] using htarget

theorem closes_branches (bs : List ElseIfExpr) (ts : List Token) :
    Closes .ranks 0 (bs.flatMap (fun b => (Node.elseIfExpr b).tokens) ++ .elseKw :: ts) := by
  cases bs with
  | nil => exact .cons (Nat.le_refl 0) rfl
  | cons b bs =>
      obtain ⟨c, v⟩ := b
      exact .cons (Nat.le_refl 0) rfl

theorem ElseIfExpr.reads {b : ElseIfExpr}
    (hc : b.condition.ReadsAs .ranks b.condition.ungrouped)
    (hv : b.value.ReadsAs .ranks b.value.ungrouped) : (Node.elseIfExpr b).Reads := by
  obtain ⟨c', v'⟩ := b
  intro bs c fs v isOpen ts hcloses
  have helseif : step .ranks ⟨.value bs c :: fs, .after v isOpen⟩ .elseifKw =
      some ⟨.condition (bs ++ [⟨c, v⟩]) :: fs, .operand⟩ := rfl
  have hthen : step .ranks ⟨.condition (bs ++ [⟨c, v⟩]) :: fs, .after c'.ungrouped c'.isIndexable⟩
      .thenKw = some ⟨.value (bs ++ [⟨c, v⟩]) c'.ungrouped :: fs, .operand⟩ := rfl
  have hvalue := hv (.value (bs ++ [⟨c, v⟩]) c'.ungrouped :: fs) ts
    (Expr.begins_cons (by simp [Frame.limit?])) (Expr.ends_of_closes hcloses (Nat.zero_le _))
  rw [Node.tokens_elseIfExpr]
  simp only [List.append_assoc, List.cons_append]
  rw [run_of_step helseif, hc.delimited rfl fs rfl rfl, run_of_step hthen, hvalue]

theorem reads_branches {bs : List ElseIfExpr} (hbs : ∀ b ∈ bs, (Node.elseIfExpr b).Reads)
    (done : List ElseIfExpr) (c : Expr) (fs : List Frame) (v : Expr) (isOpen : Bool)
    (ts : List Token) :
    run .ranks ⟨.value done c :: fs, .after v isOpen⟩
        (bs.flatMap (fun b => (Node.elseIfExpr b).tokens) ++ .elseKw :: ts) =
      run .ranks ⟨.otherwise (done ++ ⟨c, v⟩ :: bs.map ElseIfExpr.ungrouped) :: fs, .operand⟩
        ts := by
  induction bs generalizing done c v isOpen with
  | nil =>
      have hstep : step .ranks ⟨.value done c :: fs, .after v isOpen⟩ .elseKw =
          some ⟨.otherwise (done ++ [⟨c, v⟩]) :: fs, .operand⟩ := rfl
      exact run_of_step hstep ts
  | cons b bs ih =>
      have hb := hbs b (by simp) done c fs v isOpen _ (closes_branches bs ts)
      rw [List.flatMap_cons, List.append_assoc, hb, ih fun b' hb' => hbs b' (by simp [hb'])]
      simp [ElseIfExpr.ungrouped_eq]

theorem Expr.exceeds_zero (e : Expr) : e.Exceeds .ranks 0 := by
  cases e with
  | binary l op r => exact op.rank_pos
  | _ => trivial

theorem Expr.reads_ifElse {c t e : Expr} {bs : List ElseIfExpr}
    (hc : c.ReadsAs .ranks c.ungrouped) (ht : t.ReadsAs .ranks t.ungrouped)
    (hbs : ∀ b ∈ bs, (Node.elseIfExpr b).Reads) (he : e.ReadsAs .ranks e.ungrouped) :
    (Expr.ifElse c t bs e).ReadsAs .ranks (Expr.ifElse c t bs e).ungrouped := by
  intro fs ts _ hends
  have hcloses : Closes .ranks 0 ts := hends.closes rfl
  have hif : step .ranks ⟨fs, .operand⟩ .ifKw = some ⟨.condition [] :: fs, .operand⟩ := rfl
  have hthen : step .ranks ⟨.condition [] :: fs, .after c.ungrouped c.isIndexable⟩ .thenKw =
      some ⟨.value [] c.ungrouped :: fs, .operand⟩ := rfl
  have hvalue := ht (.value [] c.ungrouped :: fs)
    (bs.flatMap (fun b => (Node.elseIfExpr b).tokens) ++ .elseKw :: ((Node.expr e).tokens ++ ts))
    (begins_cons (by simp [Frame.limit?])) (ends_of_closes (closes_branches bs _) (Nat.zero_le _))
  have hlast := he (.otherwise (⟨c.ungrouped, t.ungrouped⟩ :: bs.map ElseIfExpr.ungrouped) :: fs) ts
    (begins_cons (by simpa [Frame.limit?] using e.exceeds_zero))
    (ends_of_closes hcloses (Nat.zero_le _))
  rw [Node.tokens_ifElse, ungrouped_ifElse]
  simp only [List.append_assoc, List.cons_append]
  rw [run_of_step hif, hc.delimited rfl fs rfl rfl, run_of_step hthen, hvalue, reads_branches hbs,
    List.nil_append, hlast, run_complete rfl hcloses]
  rfl

theorem reads_suffixes {ss : List Suffix} (hss : ∀ s ∈ ss, (Node.suffix s).Reads)
    (fs : List Frame) (v : Expr) (ts : List Token) :
    run .ranks ⟨fs, .after v true⟩ (ss.flatMap (fun s => (Node.suffix s).tokens) ++ ts) =
      run .ranks ⟨fs, .after ((ss.map Suffix.ungrouped).foldl Expr.postfixed v) true⟩ ts := by
  induction ss generalizing v with
  | nil => rfl
  | cons s ss ih =>
      have hs := hss s (by simp) fs v (ss.flatMap (fun s => (Node.suffix s).tokens) ++ ts)
      rw [List.flatMap_cons, List.append_assoc, hs, ih fun s' hs' => hss s' (by simp [hs'])]
      rfl

theorem Call.reads {c : Call} (hhead : (Node.callHead c.head).Reads)
    (hss : ∀ s ∈ c.suffixes, (Node.suffix s).Reads) : (Node.call c).Reads := by
  obtain ⟨h, ss⟩ := c
  intro fs ts
  have hungrouped : (Expr.call ⟨h, ss⟩).ungrouped =
      (ss.map Suffix.ungrouped).foldl Expr.postfixed h.ungrouped := by
    cases h with
    | name n => exact Expr.ungrouped_call_name n ss
    | expr e => exact Expr.ungrouped_call_expr e ss
  rw [Node.tokens_call, List.append_assoc, hhead, reads_suffixes hss, hungrouped]

theorem CallHead.reads {h : CallHead} (ih : ∀ m ∈ h.children, m.Reads) :
    (Node.callHead h).Reads := by
  intro fs ts
  cases h with
  | name n =>
      have hname : step .ranks ⟨fs, .operand⟩ (.name n) =
          some ⟨fs, .after (.symbol n) true⟩ := rfl
      exact run_of_step hname ts
  | expr e =>
      have he : e.ReadsAs .ranks e.ungrouped := ih (.expr e) (by simp [CallHead.children])
      exact he.wrapped fs ts

theorem reads_arguments {as : List Expr} (has : ∀ a ∈ as, a.ReadsAs .ranks a.ungrouped) (t : Expr)
    (m : Option String) {a : Expr} (ha : a.ReadsAs .ranks a.ungrouped) (done : List Expr)
    (fs : List Frame) (ts : List Token) :
    run .ranks ⟨.args t m done :: fs, .operand⟩
        (List.intercalate [.comma] ((a :: as).map fun a => (Node.expr a).tokens)
          ++ .parenClose :: ts) =
      run .ranks ⟨fs, .after (t.postfixed (.ofArgs m (done ++ (a :: as).map Expr.ungrouped)))
        true⟩ ts := by
  induction as generalizing a done with
  | nil =>
      have hclose : step .ranks ⟨.args t m done :: fs, .after a.ungrouped a.isIndexable⟩
          .parenClose = some ⟨fs, .after (t.postfixed (.ofArgs m (done ++ [a.ungrouped]))) true⟩ :=
        rfl
      have harg := ha.delimited (f := .args t m done) rfl fs (t := .parenClose) rfl rfl ts
      simpa [List.intercalate, run_of_step hclose] using harg
  | cons b as ih =>
      have hcomma : step .ranks ⟨.args t m done :: fs, .after a.ungrouped a.isIndexable⟩ .comma =
          some ⟨.args t m (done ++ [a.ungrouped]) :: fs, .operand⟩ := rfl
      have harg := ha.delimited (f := .args t m done) rfl fs (t := .comma) rfl rfl
        (List.intercalate [.comma] ((b :: as).map fun a => (Node.expr a).tokens)
          ++ .parenClose :: ts)
      have hrest := ih (fun a' ha' => has a' (by simp [ha'])) (has b (by simp))
        (done ++ [a.ungrouped])
      rw [run_of_step hcomma, hrest] at harg
      simpa [List.intercalate] using harg

theorem reads_args {as : List Expr} (has : ∀ a ∈ as, a.ReadsAs .ranks a.ungrouped) :
    (Node.args as).Reads := by
  intro s t m fs ts hopen
  rw [Node.tokens_args]
  simp only [List.append_assoc, List.cons_append, List.nil_append]
  rw [run_of_step hopen]
  cases as with
  | nil =>
      have hclose : step .ranks ⟨.args t m [] :: fs, .operand⟩ .parenClose =
          some ⟨fs, .after (t.postfixed (.ofArgs m [])) true⟩ := rfl
      exact run_of_step hclose ts
  | cons a as =>
      exact reads_arguments (fun b hb => has b (by simp [hb])) t m (has a (by simp)) [] fs ts

theorem Suffix.reads {s : Suffix} (ih : ∀ m ∈ s.children, m.Reads) : (Node.suffix s).Reads := by
  intro fs v ts
  cases s with
  | call as =>
      rw [Suffix.ungrouped_call]
      exact ih (.args as) (by simp [Suffix.children]) ⟨fs, .after v true⟩ v none fs ts rfl
  | method n as =>
      have hcolon : step .ranks ⟨fs, .after v true⟩ .colon = some ⟨fs, .method v⟩ := rfl
      have hname : step .ranks ⟨fs, .method v⟩ (.name n) = some ⟨fs, .arguments v n⟩ := rfl
      have hargs := ih (.args as) (by simp [Suffix.children]) ⟨fs, .arguments v n⟩ v (some n) fs ts
        rfl
      rw [Node.tokens_method, Suffix.ungrouped_method]
      simp only [List.cons_append]
      rw [run_of_step hcolon, run_of_step hname, hargs]
      rfl
  | dot n =>
      have hdot : step .ranks ⟨fs, .after v true⟩ .dot = some ⟨fs, .field v⟩ := rfl
      have hname : step .ranks ⟨fs, .field v⟩ (.name n) =
          some ⟨fs, .after (v.postfixed (.dot n)) true⟩ := rfl
      have hrun := run_of_step hdot (.name n :: ts)
      rw [run_of_step hname] at hrun
      exact hrun
  | brackets k =>
      have hkey := reads_brackets (ih (.expr k) (by simp [Suffix.children])) fs v ts
      rw [Node.tokens_brackets, Suffix.ungrouped_brackets]
      simpa using hkey

theorem Expr.reads {e : Expr} (h : (Node.expr e).Readable) (ih : ∀ m ∈ e.children, m.Reads) :
    e.ReadsAs .ranks e.ungrouped := by
  have hexpr : ∀ e', Node.expr e' ∈ e.children → e'.ReadsAs .ranks e'.ungrouped :=
    fun e' he' => ih (.expr e') he'
  cases e with
  | symbol n =>
      intro fs ts _ _
      have hname : step .ranks ⟨fs, .operand⟩ (.name n) =
          some ⟨fs, .after (.symbol n) true⟩ := rfl
      exact run_of_step hname ts
  | literal v =>
      cases v with
      | number x => exact reads_number h.self
      | _ => exact absurd h.self (by simp [Node.isReadable])
  | varArgs =>
      intro fs ts _ _
      have hellipsis : step .ranks ⟨fs, .operand⟩ .ellipsis =
          some ⟨fs, .after .varArgs false⟩ := rfl
      exact run_of_step hellipsis ts
  | binary l op r =>
      exact (hexpr l (by simp [Expr.children])).binary (hexpr r (by simp [Expr.children])) fits_left
        fits_right
  | unary op e => exact (hexpr e (by simp [Expr.children])).unary
  | call c =>
      intro fs ts _ _
      exact ih (.call c) (by simp [Expr.children]) fs ts
  | ifElse c t bs e =>
      exact reads_ifElse (hexpr c (by simp [Expr.children])) (hexpr t (by simp [Expr.children]))
        (fun b hb => ih (.elseIfExpr b) (by simp [Expr.children, hb]))
        (hexpr e (by simp [Expr.children]))
  | index t k =>
      exact reads_index (hexpr t (by simp [Expr.children])) (hexpr k (by simp [Expr.children]))
  | paren e =>
      intro fs ts _ _
      exact (hexpr e (by simp [Expr.children])).wrapped fs ts
  | _ => exact absurd h.self (by simp [Node.isReadable])

theorem Node.reads (n : Node) (h : n.Readable) : n.Reads := by
  induction n using Node.inductionOn with
  | step n ih =>
      have hchildren : ∀ m ∈ n.children, m.Reads := fun m hm => ih m hm (h.child hm)
      cases n with
      | expr e => exact Expr.reads h hchildren
      | elseIfExpr b =>
          have hc := hchildren (.expr b.condition) (by simp [Node.children, ElseIfExpr.children])
          have hv := hchildren (.expr b.value) (by simp [Node.children, ElseIfExpr.children])
          exact ElseIfExpr.reads hc hv
      | call c =>
          have hhead := hchildren (.callHead c.head) (by simp [Node.children, Call.children])
          exact Call.reads hhead fun s hs =>
            hchildren (.suffix s) (by simp [Node.children, Call.children, hs])
      | args as => exact reads_args fun a ha => hchildren (.expr a) (List.mem_map_of_mem ha)
      | callHead hd => exact CallHead.reads hchildren
      | suffix s => exact Suffix.reads hchildren
      | _ => exact trivial

theorem Printer.exists_read_of_readsAs (p : Printer) {q : Precedence} {e v : Expr}
    (he : (Node.expr e).Readable) (h : e.ReadsAs q v) :
    ∃ text, p.printExpr e = .ok text ∧ read q text = some v := by
  obtain ⟨text, hprint, htokens⟩ := p.exists_printExpr_of_readable he
  refine ⟨text, hprint, ?_⟩
  have hread := h [] [] (by simp [Expr.Begins]) (by simp [Expr.Ends])
  rw [Reading.read, htokens]
  simpa [run, finish, close] using hread

theorem Printer.read_printExpr (p : Printer) (e : Expr) (h : (Node.expr e).Readable) :
    ∃ text, p.printExpr e = .ok text ∧ read .ranks text = some e.ungrouped :=
  p.exists_read_of_readsAs h (Node.reads (.expr e) h)

theorem Printer.read_printExpr_power :
    ∃ text, Printer.printExpr {}
        (.binary (.unary .minus (.literal (.number ⟨0xBFF0000000000000⟩))) .caret
          (.index (.ifElse .varArgs (.symbol "a") [⟨.symbol "b", .varArgs⟩] (.paren (.symbol "c")))
            (.call ⟨.name "f", [.method "m" [.varArgs]]⟩))) = .ok text ∧
      read .ranks text = some
        (.binary (.unary .minus (.unary .minus (.literal (.number ⟨0x3FF0000000000000⟩)))) .caret
          (.call ⟨.expr (.ifElse .varArgs (.symbol "a") [⟨.symbol "b", .varArgs⟩] (.symbol "c")),
            [.brackets (.call ⟨.name "f", [.method "m" [.varArgs]]⟩)]⟩)) :=
  Printer.read_printExpr {} _ (by decide +kernel)

end LuauSyntax
