import LuauSyntax.Proofs.Reading.Relations

namespace LuauSyntax

open Reading Doc

namespace BinaryOp

theorem limit_lt_of_wraps_left {op inner : BinaryOp} (h : op.wraps inner .left = true) :
    Precedence.ranks.limit inner < op.rank := by
  have hpos := op.rank_pos
  have hlimit := inner.limit_le_rank
  unfold wraps at h
  split at h
  · rename_i heq
    have hassoc : inner.isRightAssoc = true := isRightAssoc_eq_of_rank_eq heq ▸ h
    have hinner : Precedence.ranks.limit inner = inner.rank - 1 := if_pos hassoc
    omega
  · have hlt : inner.rank < op.rank := by simpa using h
    omega

theorem rank_le_limit_of_wraps_right {op inner : BinaryOp} (h : op.wraps inner .right = true) :
    inner.rank ≤ Precedence.ranks.limit op := by
  have hlimit := op.rank_le_limit_add_one
  unfold wraps at h
  split at h
  · rename_i heq
    have hassoc : ¬op.isRightAssoc = true := by simpa using h
    have hop : Precedence.ranks.limit op = op.rank := if_neg hassoc
    omega
  · have hlt : inner.rank < op.rank := by simpa using h
    omega

end BinaryOp

theorem Reading.Closes.mono {p : Precedence} {j k : Nat} {ts : List Token} (h : Closes p j ts)
    (hjk : j ≤ k) : Closes p k ts :=
  fun t ht => ⟨Nat.le_trans (h t ht).1 hjk, (h t ht).2⟩

namespace Expr

def appended (e : Expr) (op : BinaryOp) (r : Expr) : Expr :=
  match e with
  | .binary a inner b =>
      if op.wraps inner .left then
        .binary a inner (if b.isWrappedUnder inner .right then .binary b op r else b.appended op r)
      else .binary (.binary a inner b) op r
  | .unary inner e =>
      if op = .caret then
        .unary inner (if e.isWrappedAfter inner then .binary e op r else e.appended op r)
      else .binary (.unary inner e) op r
  | e => .binary e op r

def prepended (e l : Expr) (op : BinaryOp) : Expr :=
  match e with
  | .binary a inner b =>
      if op.wraps inner .right then
        .binary (if a.isWrappedUnder inner .left then .binary l op a else a.prepended l op) inner b
      else .binary l op (.binary a inner b)
  | e => .binary l op e

theorem binary_ne_left (a b : Expr) (op : BinaryOp) : a ≠ .binary a op b := by
  intro h
  have hsize := congrArg sizeOf h
  simp only [binary.sizeOf_spec] at hsize
  omega

theorem binary_ne_right (a b : Expr) (op : BinaryOp) : b ≠ .binary a op b := by
  intro h
  have hsize := congrArg sizeOf h
  simp only [binary.sizeOf_spec] at hsize
  omega

namespace Operation

variable {e l r : Expr} {op : BinaryOp}

theorem appended_eq_iff (h : l.Operation) :
    l.appended op r = .binary l op r ↔ l.isWrappedUnder op .left = false := by
  cases h with
  | symbol _ => simp [appended, isWrappedUnder]
  | @binary a b inner _ _ =>
      cases hw : op.wraps inner .left with
      | false => simp [appended, isWrappedUnder, hw]
      | true =>
          have hne := binary_ne_left a b inner
          simp [appended, isWrappedUnder, hw, hne]
  | @unary e inner _ =>
      by_cases hop : op = .caret
      · simp [appended, isWrappedUnder, hop]
      · simp [appended, isWrappedUnder, hop]

theorem prepended_eq_iff (h : r.Operation) :
    r.prepended l op = .binary l op r ↔ r.isWrappedUnder op .right = false := by
  cases h with
  | symbol _ => simp [prepended, isWrappedUnder]
  | @binary a b inner _ _ =>
      cases hw : op.wraps inner .right with
      | false => simp [prepended, isWrappedUnder, hw]
      | true =>
          have hne := binary_ne_right a b inner
          simp [prepended, isWrappedUnder, hw, hne]
  | @unary e inner _ => simp [prepended, isWrappedUnder]

theorem readsAs (h : e.Operation) : e.ReadsAs .ranks e := by
  induction h with
  | @symbol n _ =>
      intro fs ts _ _
      have hname : step .ranks ⟨fs, .operand⟩ (.name n) = some ⟨fs, .after (.symbol n) true⟩ := rfl
      exact run_of_step hname ts
  | binary _ _ ihl ihr => exact ihl.binary ihr fits_left fits_right
  | unary _ ih => exact ih.unary

theorem run_operator (hr : r.Operation) {fs : List Frame}
    (hfs : ∀ f ∈ fs.head?, ∀ k ∈ f.limit? .ranks, k < op.rank) {ts : List Token}
    (hts : Closes .ranks (Precedence.ranks.limit op) ts) (v : Expr) (isOpen : Bool) :
    run .ranks ⟨fs, .after v isOpen⟩
        (.op op :: (Token.wrapIf (r.isWrappedUnder op .right) (Node.expr r).tokens ++ ts)) =
      run .ranks ⟨fs, .after (.binary v op r) false⟩ ts := by
  rw [run_of_step (step_op hfs v isOpen), hr.readsAs.right fits_right hts]

theorem run_appended_operand (he : e.Operation) (hr : r.Operation) {f : Frame} {k : Nat}
    (hf : f.limit? .ranks = some k) (hk : k < op.rank) (fs : List Frame) {ts : List Token}
    (hts : Closes .ranks 0 ts) (wrapped : Bool)
    (ih : wrapped = false → run .ranks ⟨f :: fs, .operand⟩ ((Node.expr e).tokens
        ++ .op op :: (Token.wrapIf (r.isWrappedUnder op .right) (Node.expr r).tokens ++ ts)) =
      run .ranks ⟨f :: fs, .after (e.appended op r) false⟩ ts) :
    run .ranks ⟨f :: fs, .operand⟩ (Token.wrapIf wrapped (Node.expr e).tokens
        ++ .op op :: (Token.wrapIf (r.isWrappedUnder op .right) (Node.expr r).tokens ++ ts)) =
      run .ranks ⟨fs, .after (f.complete (if wrapped then .binary e op r else e.appended op r))
        false⟩ ts := by
  have hfs : ∀ g ∈ (f :: fs).head?, ∀ j ∈ g.limit? .ranks, j < op.rank := by
    simpa [hf] using hk
  rw [← run_complete hf (hts.mono (Nat.zero_le k)) fs _ false]
  cases wrapped with
  | false => exact ih rfl
  | true =>
      rw [he.readsAs.wrapped, hr.run_operator hfs (hts.mono (Nat.zero_le _))]
      rfl

theorem run_unwrapped (he : e.Operation) (hr : r.Operation)
    (hw : e.isWrappedUnder op .left = false) {fs : List Frame}
    (hfs : ∀ f ∈ fs.head?, ∀ k ∈ f.limit? .ranks, k < op.rank) {ts : List Token}
    (hts : Closes .ranks (Precedence.ranks.limit op) ts) :
    run .ranks ⟨fs, .operand⟩ ((Node.expr e).tokens
        ++ .op op :: (Token.wrapIf (r.isWrappedUnder op .right) (Node.expr r).tokens ++ ts)) =
      run .ranks ⟨fs, .after (.binary e op r) false⟩ ts := by
  have hleft := he.readsAs.left (@fits_left e op) hfs
    (Token.wrapIf (r.isWrappedUnder op .right) (Node.expr r).tokens ++ ts)
  rw [hw, hr.readsAs.right fits_right hts] at hleft
  exact hleft

theorem run_appended (he : e.Operation) (op : BinaryOp) (hr : r.Operation) (fs : List Frame)
    (hbegins : e.Begins .ranks fs) (hfs : ∀ f ∈ fs.head?, ∀ k ∈ f.limit? .ranks, k < op.rank)
    {ts : List Token} (hts : Closes .ranks 0 ts) :
    run .ranks ⟨fs, .operand⟩ ((Node.expr e).tokens
        ++ .op op :: (Token.wrapIf (r.isWrappedUnder op .right) (Node.expr r).tokens ++ ts)) =
      run .ranks ⟨fs, .after (e.appended op r) false⟩ ts := by
  have hends := hts.mono (Nat.zero_le (Precedence.ranks.limit op))
  induction he generalizing fs with
  | symbol hn => exact (Operation.symbol hn).run_unwrapped hr rfl hfs hends
  | @binary a b inner ha hb _ ih =>
      cases hinner : op.wraps inner .left with
      | false =>
          have hrun := (ha.binary hb).run_unwrapped hr hinner hfs hends
          rw [appended, hinner]
          exact hrun
      | true =>
          have hlt := BinaryOp.limit_lt_of_wraps_left hinner
          have hlast := hb.run_appended_operand (f := .binary a inner) hr rfl hlt fs hts
            (b.isWrappedUnder inner .right) fun hopen => ih _
              (begins_cons (by simpa [Frame.limit?] using (fits_right hopen).2))
              (by simpa [Frame.limit?] using hlt)
          rw [Node.tokens_binary, List.append_assoc, List.cons_append,
            ha.readsAs.left fits_left hbegins, hlast, appended, if_pos hinner]
          rfl
  | @unary e inner he ih =>
      by_cases hop : op = .caret
      · have hlt : Precedence.ranks.unaryLimit < op.rank := by rw [hop]; decide
        have hlast := he.run_appended_operand (f := .unary inner) hr rfl hlt fs hts
          (e.isWrappedAfter inner) fun hopen => ih _
            (begins_cons (by simpa [Frame.limit?] using (fits_unary hopen).2))
            (by simpa [Frame.limit?] using hlt)
        rw [Node.tokens_unary, List.cons_append, run_of_step (step_reading inner fs), hlast,
          appended, if_pos hop]
        rfl
      · have hsign : (Expr.unary inner e).Operation := he.unary
        have hrun := hsign.run_unwrapped hr (by simp [isWrappedUnder, hop]) hfs hends
        rw [appended, if_neg hop]
        exact hrun

theorem run_prepended_operand (he : e.Operation) {inner : BinaryOp}
    (hle : inner.rank ≤ Precedence.ranks.limit op) (fs : List Frame) (ts : List Token)
    (wrapped : Bool)
    (ih : wrapped = false →
      run .ranks ⟨.binary l op :: fs, .operand⟩ ((Node.expr e).tokens ++ .op inner :: ts) =
        run .ranks ⟨fs, .after (e.prepended l op) false⟩ (.op inner :: ts)) :
    run .ranks ⟨.binary l op :: fs, .operand⟩
        (Token.wrapIf wrapped (Node.expr e).tokens ++ .op inner :: ts) =
      run .ranks ⟨fs, .after (if wrapped then .binary l op e else e.prepended l op) false⟩
        (.op inner :: ts) := by
  cases wrapped with
  | false => exact ih rfl
  | true =>
      have hcloses : Closes .ranks (Precedence.ranks.limit op) (.op inner :: ts) := .cons hle rfl
      rw [he.readsAs.wrapped, run_complete (f := .binary l op) rfl hcloses]
      rfl

theorem run_prepended (he : e.Operation) (l : Expr) (op : BinaryOp) (fs : List Frame)
    (hbegins : e.Begins .ranks fs)
    {ts : List Token} {k : Nat} (hts : Closes .ranks k ts)
    (hlimit : k ≤ Precedence.ranks.limit op) (hedge : k ≤ e.edge .ranks) :
    run .ranks ⟨.binary l op :: fs, .operand⟩ ((Node.expr e).tokens ++ ts) =
      run .ranks ⟨fs, .after (e.prepended l op) false⟩ ts := by
  have hunwrapped {e : Expr} (he : e.Operation) (hw : e.isWrappedUnder op .right = false)
      {ts : List Token} {k : Nat} (hts : Closes .ranks k ts)
      (hlimit : k ≤ Precedence.ranks.limit op) :
      run .ranks ⟨.binary l op :: fs, .operand⟩ ((Node.expr e).tokens ++ ts) =
        run .ranks ⟨fs, .after (.binary l op e) false⟩ ts := by
    have hright := he.readsAs.right (@fits_right e op) (hts.mono hlimit) fs l
    rw [hw] at hright
    exact hright
  induction he generalizing ts k with
  | symbol hn => exact hunwrapped (.symbol hn) rfl hts hlimit
  | unary he _ => exact hunwrapped he.unary (by simp [isWrappedUnder]) hts hlimit
  | @binary a b inner ha hb ih _ =>
      cases hinner : op.wraps inner .right with
      | false =>
          have hrun := hunwrapped (ha.binary hb) hinner hts hlimit
          rw [prepended, hinner]
          exact hrun
      | true =>
          have hle := BinaryOp.rank_le_limit_of_wraps_right hinner
          have hfirst := ha.run_prepended_operand (l := l) hle fs
            (Token.wrapIf (b.isWrappedUnder inner .right) (Node.expr b).tokens ++ ts)
            (a.isWrappedUnder inner .left) fun hopen => ih
              (fun f hf k hk => (fits_left hopen).2 k (hbegins f hf k hk))
              (.cons (Nat.le_refl _) rfl) hle (fits_left hopen).1
          rw [Node.tokens_binary, List.append_assoc, List.cons_append, hfirst,
            hb.run_operator hbegins (hts.mono hedge), prepended, if_pos hinner]

end Operation

end Expr

def Text.enclosed (wrap : Bool) (t : String) : String :=
  if wrap then "(" ++ t ++ ")" else t

theorem Doc.chars_wrapIf (wrap : Bool) (d : Doc) :
    (wrapIf wrap d).chars = (Text.enclosed wrap (String.ofList d.chars)).toList := by
  cases wrap <;> simp [wrapIf, Text.enclosed, chars_append, chars_text]

def Text.operation (leftWrap : Bool) (left : String) (op : BinaryOp) (rightWrap : Bool)
    (right : String) : String :=
  Text.enclosed leftWrap left ++ " " ++ op.token ++ " " ++ Text.enclosed rightWrap right

theorem Expr.scan_operation {reg : Registry} {l r : Expr} (op : BinaryOp)
    (hl : Spells (l.doc reg) (Node.expr l).joins (Node.expr l).tokens)
    (hr : Spells (r.doc reg) (Node.expr r).joins (Node.expr r).tokens) (leftWrap rightWrap : Bool) :
    Token.scan (Text.operation leftWrap (String.ofList (l.doc reg).chars) op rightWrap
        (String.ofList (r.doc reg).chars)).toList =
      Token.wrapIf leftWrap (Node.expr l).tokens
        ++ .op op :: Token.wrapIf rightWrap (Node.expr r).tokens := by
  have hspells := ((spells_operand hl leftWrap).append (Spells.spacedOp op) (c := ' ') rfl
    rfl).append_of_free (spells_operand hr rightWrap)
  have hscan := hspells.scans [] (by simp)
  simpa [Text.operation, chars_append, chars_text, chars_wrapIf, Token.scan] using hscan

theorem Printer.printExpr_operation (p : Printer) {l r : Expr} (op : BinaryOp)
    (h : (Node.expr (.binary l op r)).Readable) :
    p.printExpr (.binary l op r) = .ok (Text.operation (l.isWrappedUnder op .left)
      (String.ofList (l.doc p.registry).chars) op (r.isWrappedUnder op .right)
      (String.ofList (r.doc p.registry).chars)) := by
  have hspells : Spells ((Expr.binary l op r).doc p.registry) _ _ := Node.spells (.expr _) h
  rw [printExpr, p.print_of_isText hspells.isText]
  apply congrArg Except.ok
  apply String.toList_injective
  simp [Expr.doc, Text.operation, chars_append, chars_text, chars_wrapIf]

theorem Printer.read_without_parens (p : Printer) {l r : Expr} (op : BinaryOp) (hl : l.Operation)
    (hr : r.Operation) :
    ∃ left right, p.printExpr l = .ok left ∧ p.printExpr r = .ok right ∧
      p.printExpr (.binary l op r) = .ok (Text.operation (l.isWrappedUnder op .left) left op
        (r.isWrappedUnder op .right) right) ∧
      (∃ e, read .ranks (Text.operation false left op (r.isWrappedUnder op .right) right) = some e ∧
        (e = .binary l op r ↔ l.isWrappedUnder op .left = false)) ∧
      ∃ e, read .ranks (Text.operation (l.isWrappedUnder op .left) left op false right) = some e ∧
        (e = .binary l op r ↔ r.isWrappedUnder op .right = false) := by
  have hlspells : Spells (l.doc p.registry) (Node.expr l).joins (Node.expr l).tokens :=
    Node.spells (.expr l) hl.readable
  have hrspells : Spells (r.doc p.registry) (Node.expr r).joins (Node.expr r).tokens :=
    Node.spells (.expr r) hr.readable
  refine ⟨_, _, p.print_of_isText hlspells.isText, p.print_of_isText hrspells.isText,
    p.printExpr_operation op (hl.binary hr).readable, ⟨l.appended op r, ?_, hl.appended_eq_iff⟩,
    r.prepended l op, ?_, hr.prepended_eq_iff⟩
  · have hend : Closes .ranks 0 [] := by simp [Closes]
    have hrun := hl.run_appended op hr [] (by simp [Expr.Begins]) (by simp) hend
    rw [Reading.read, Expr.scan_operation op hlspells hrspells]
    simpa [Token.wrapIf, Reading.run, finish, close] using hrun
  · have hfirst : ∀ f ∈ ([] : List Frame).head?, ∀ k ∈ f.limit? .ranks, k < op.rank := by simp
    have hleft := hl.readsAs.left (@Expr.fits_left l op) hfirst (Node.expr r).tokens
    have hend : Closes .ranks 0 [] := by simp [Closes]
    have hrun := hr.run_prepended l op [] (by simp [Expr.Begins]) hend (Nat.zero_le _)
      (Nat.zero_le _)
    rw [List.append_nil] at hrun
    rw [Reading.read, Expr.scan_operation op hlspells hrspells]
    simpa [Token.wrapIf, Reading.run, finish, close] using hleft.trans hrun

theorem Printer.read_without_parens_power :
    Printer.printExpr {} (.binary (.unary .minus (.binary (.symbol "a") .plus (.symbol "b"))) .caret
        (.binary (.symbol "c") .concat (.symbol "d"))) = .ok "(-(a + b)) ^ (c .. d)" ∧
      (∃ e, read .ranks "-(a + b) ^ (c .. d)" = some e ∧
        e ≠ .binary (.unary .minus (.binary (.symbol "a") .plus (.symbol "b"))) .caret
          (.binary (.symbol "c") .concat (.symbol "d"))) ∧
      ∃ e, read .ranks "(-(a + b)) ^ c .. d" = some e ∧
        e ≠ .binary (.unary .minus (.binary (.symbol "a") .plus (.symbol "b"))) .caret
          (.binary (.symbol "c") .concat (.symbol "d")) := by
  have hl : Expr.Operation (.unary .minus (.binary (.symbol "a") .plus (.symbol "b"))) :=
    .unary (.binary (.symbol rfl) (.symbol rfl))
  have hr : Expr.Operation (.binary (.symbol "c") .concat (.symbol "d")) :=
    .binary (.symbol rfl) (.symbol rfl)
  obtain ⟨left, right, hleft, hright, htext, ⟨e, he, hne⟩, e', he', hne'⟩ :=
    Printer.read_without_parens {} .caret hl hr
  obtain rfl : "-(a + b)" = left := Except.ok.inj hleft
  obtain rfl : "c .. d" = right := Except.ok.inj hright
  exact ⟨htext, ⟨e, he, by simp [hne, Expr.isWrappedUnder]⟩, e', he',
    by simp [hne', Expr.isWrappedUnder, BinaryOp.wraps, BinaryOp.rank]⟩

end LuauSyntax
