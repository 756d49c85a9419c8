import LuauSyntax.Proofs.Doc.Within
import LuauSyntax.Proofs.Frame.Tree
import LuauSyntax.Proofs.Layout.Texts

namespace LuauSyntax

open Doc

def Text.opensPlainly (t : String) : Bool :=
  t.toList.head?.any (· ≠ '(')

def Node.opensPlainly : Node → Bool
  | .expr (.symbol n) | .callHead (.name n) => Text.opensPlainly n
  | .expr (.literal (.number x)) => !x.isNaN
  | n => !n.isCustom

theorem Node.not_isCustom_of_opensPlainly {n : Node} (h : n.opensPlainly = true) :
    n.isCustom = false := by
  cases n with
  | stmt s => cases s <;> simp_all [opensPlainly, isCustom]
  | expr e => cases e <;> simp_all [opensPlainly, isCustom]
  | _ => rfl

namespace Number

theorem text_decimal_ne_nil (d : Decimal) : d.text.toList ≠ [] := by
  unfold Decimal.text
  split <;> simp

theorem magnitudeText_ne_nil (x : Number) : x.magnitudeText.toList ≠ [] := by
  unfold magnitudeText
  split
  · split
    · simp
    · exact text_decimal_ne_nil x.shortest
  · exact text_decimal_ne_nil x.shortest

theorem opensPlainly_magnitudeText (x : Number) : Text.opensPlainly x.magnitudeText = true := by
  obtain ⟨c, cs, hcs⟩ := List.exists_cons_of_ne_nil x.magnitudeText_ne_nil
  have hc : c.isDigit = true ∨ c = '.' :=
    isDigit_or_dot_of_mem_magnitudeText (x := x) (by simp [hcs])
  have hne : c ≠ '(' := by
    rintro rfl
    exact absurd hc (by decide)
  simpa [Text.opensPlainly, hcs] using hne

theorem opensPlainly_text {x : Number} (h : x.isNaN = false) :
    Text.opensPlainly x.text = true := by
  rw [text, h]
  cases x.isInfinite with
  | true => cases x.isNegative <;> simp [Text.opensPlainly]
  | false =>
      cases x.isNegative with
      | true => simp [Text.opensPlainly]
      | false => simpa using x.opensPlainly_magnitudeText

end Number

namespace Doc

def first? : Doc → Option Char
  | .edit (.append t) :: d => t.toList.head?.or (first? d)
  | _ => none

theorem first?_append {d : Doc} {c : Char} (h : d.first? = some c) (e : Doc) :
    (d ++ e).first? = some c := by
  induction d using first?.induct with
  | case1 t d ih =>
      simp only [List.cons_append, first?] at h ⊢
      cases ht : t.toList.head? with
      | none => exact ih (by simpa [ht] using h)
      | some b => simpa [ht] using h
  | case2 d hd => simp [first?] at h

theorem head?_textFrom {d : Doc} {c : Char} (h : d.first? = some c) (unit : String)
    (base k : Nat) : (d.textFrom unit base k).toList.head? = some c := by
  induction d using first?.induct with
  | case1 t d ih =>
      simp only [first?] at h
      simp only [textFrom, Piece.textAt, Piece.depth?, Option.getD_some, String.toList_append,
        List.head?_append]
      cases ht : t.toList.head? with
      | none => exact ih (by simpa [ht] using h)
      | some b => simpa [ht] using h
  | case2 d hd => simp [first?] at h

def Opens (d : Doc) (paren : Bool) : Prop :=
  ∃ c, d.first? = some c ∧ (c = '(' ↔ paren = true)

variable {d e : Doc} {t : String} {paren wrap : Bool}

theorem opens_paren : (text "(" ++ d).Opens true :=
  ⟨'(', rfl, by simp⟩

theorem opens_text (h : Text.opensPlainly t = true) : (text t).Opens false := by
  obtain ⟨c, hc, hne⟩ := (Option.any_eq_true _ _).mp h
  exact ⟨c, by simp [text, first?, hc], by simpa using hne⟩

theorem Opens.append (h : d.Opens paren) : (d ++ e).Opens paren := by
  obtain ⟨c, hc, hparen⟩ := h
  exact ⟨c, first?_append hc e, hparen⟩

theorem Opens.text_empty_append (h : d.Opens paren) : (text "" ++ d).Opens paren := by
  obtain ⟨c, hc, hparen⟩ := h
  exact ⟨c, by simpa [text, first?] using hc, hparen⟩

theorem Opens.wrapIf (h : d.Opens paren) : (wrapIf wrap d).Opens (wrap || paren) := by
  cases wrap with
  | true => exact opens_paren.append
  | false => simpa [Doc.wrapIf] using h

theorem opens_table (positional padded : Bool) (ds : List Doc) :
    (table positional padded ds).Opens false := by
  unfold table
  split
  · exact opens_text rfl
  · split
    · exact (opens_text (by split <;> rfl)).append.append
    · exact (opens_text rfl).append.append

end Doc

variable {reg : Registry}

theorem UnaryOp.opens_token (op : UnaryOp) : (text op.token).Opens false := by
  cases op <;> exact opens_text rfl

theorem Literal.opens_doc (v : Literal) (h : (Node.expr (.literal v)).opensPlainly = true) :
    v.doc.Opens false := by
  cases v with
  | nil => exact opens_text rfl
  | boolean b => cases b <;> exact opens_text rfl
  | number x => exact opens_text (Number.opensPlainly_text (by simpa [Node.opensPlainly] using h))
  | string s => exact opens_text (by simp [Text.opensPlainly, Text.quoted])

theorem Call.opens_name {n : String} {ss : List Suffix}
    (h : ∀ m ∈ (Node.call ⟨.name n, ss⟩).preorder, m.opensPlainly = true) :
    (text n).Opens false := by
  have hhead := (Node.forall_mem_preorder.mp h).2 (.callHead (.name n))
    (by simp [Node.children, children])
  exact opens_text (Node.forall_mem_preorder.mp hhead).1

theorem Node.opens_doc (n : Node) (h : ∀ m ∈ n.preorder, m.opensPlainly = true) :
    ∀ e, n = .expr e → (e.doc reg).Opens e.startsWithParen := by
  induction n using Node.inductionOn with
  | step n ih =>
      rintro e rfl
      obtain ⟨hself, hchildren⟩ := forall_mem_preorder.mp h
      have hbegun (f : Expr) (hf : .expr f ∈ e.children) : (f.doc reg).Opens f.startsWithParen :=
        ih (.expr f) hf (hchildren (.expr f) hf) f rfl
      cases e with
      | literal v => exact v.opens_doc hself
      | symbol n => exact opens_text hself
      | varArgs => exact opens_text rfl
      | binary l op r =>
          exact (hbegun l (by simp [Expr.children])).wrapIf.append.append.append.append
      | unary op e => exact op.opens_token.append
      | call c =>
          obtain ⟨head, ss⟩ := c
          cases head with
          | name n =>
              have hcall := hchildren (.call ⟨.name n, ss⟩) (by simp [children, Expr.children])
              exact (Call.opens_name hcall).append
          | expr e => exact opens_paren.append.append
      | function b => exact (opens_text rfl).append
      | table t =>
          obtain ⟨fs, padded⟩ := t
          exact opens_table _ padded _
      | interpolated ss => exact (opens_text rfl).append.append
      | assertion e t => exact (hbegun e (by simp [Expr.children])).wrapIf.append.append
      | ifElse c t bs e => exact (opens_text rfl).append.append.append.append.append.append
      | index t k => exact (hbegun t (by simp [Expr.children])).wrapIf.append.append.append
      | paren e => exact opens_paren.append
      | custom n => simp [opensPlainly, isCustom] at hself

theorem Expr.opens_separated {e : Expr} {paren : Bool} (h : (e.doc reg).Opens paren)
    (es : List Expr) : (separated ", " (Expr.docs reg (e :: es))).Opens paren := by
  cases es with
  | nil => simpa [Expr.docs, separated, List.intercalate] using h
  | cons e' es =>
      rw [Expr.docs, Expr.docs, separated_cons_cons]
      exact h.append.append

namespace Stmt

def beginsWithExpr : Stmt → Bool
  | .assign .. | .call _ => true
  | _ => false

def startsWithParen : Stmt → Bool
  | .assign ts _ _ => ts.head?.any Expr.startsWithParen
  | .call ⟨.expr _, _⟩ => true
  | _ => false

def bareDoc (reg : Registry) : Stmt → Doc
  | .assign ts op vs =>
      separated ", " (Expr.docs reg ts) ++ text " " ++ text op.token ++ text " "
        ++ separated ", " (Expr.docs reg vs) ++ newline
  | .call c => c.doc reg ++ newline
  | _ => []

theorem doc_of_startsWithParen {s : Stmt} (h : s.startsWithParen = true) :
    s.doc reg = margin ++ text ";" ++ s.bareDoc reg := by
  match s with
  | .assign ts op vs =>
      have hts : ts.head?.any Expr.startsWithParen = true := h
      simp [doc, bareDoc, hts]
  | .call ⟨.expr e, ss⟩ => simp [doc, bareDoc, Call.doc, CallHead.doc]

theorem doc_of_not_startsWithParen (reg : Registry) {s : Stmt} (hs : s.beginsWithExpr = true)
    (h : s.startsWithParen = false) :
    ∃ d ∈ [[], text ""], s.doc reg = margin ++ d ++ s.bareDoc reg := by
  match s with
  | .assign ts op vs =>
      -- An assignment has an empty text where the separator would be.
      have hts : ts.head?.any Expr.startsWithParen = false := h
      exact ⟨text "", by simp, by simp [doc, bareDoc, hts]⟩
  | .call ⟨.name n, ss⟩ => exact ⟨[], by simp, by simp [doc, bareDoc, Call.doc, CallHead.doc]⟩

theorem opens_bareDoc (reg : Registry) {s : Stmt} (hs : s.beginsWithExpr = true)
    (h : ∀ m ∈ (Node.stmt s).preorder, m.opensPlainly = true) :
    (s.bareDoc reg).Opens s.startsWithParen := by
  have hchildren := (Node.forall_mem_preorder.mp h).2
  match s with
  | .assign [] op vs => exact ⟨' ', rfl, by simp [startsWithParen]⟩
  | .assign (t :: ts) op vs =>
      have ht := hchildren (.expr t) (by simp [Node.children, children, Node.ofExprs])
      have hfirst : (t.doc reg).Opens t.startsWithParen := Node.opens_doc (.expr t) ht t rfl
      exact (Expr.opens_separated hfirst ts).append.append.append.append.append
  | .call ⟨.name n, ss⟩ =>
      have hcall := hchildren (.call ⟨.name n, ss⟩) (by simp [Node.children, children])
      exact (Call.opens_name hcall).append.append
  | .call ⟨.expr e, ss⟩ => exact opens_paren.append.append.append

theorem exists_opens (reg : Registry) {s : Stmt} (hs : s.beginsWithExpr = true)
    (h : ∀ m ∈ (Node.stmt s).preorder, m.opensPlainly = true) :
    ∃ d, s.doc reg = margin ++ d ∧ d.Opens false := by
  cases hparen : s.startsWithParen with
  | true =>
      refine ⟨text ";" ++ s.bareDoc reg, ?_, (opens_text rfl).append⟩
      rw [doc_of_startsWithParen hparen, List.append_assoc]
  | false =>
      have hbare : (s.bareDoc reg).Opens false := hparen ▸ opens_bareDoc reg hs h
      obtain ⟨d, hd, hdoc⟩ := doc_of_not_startsWithParen reg hs hparen
      refine ⟨d ++ s.bareDoc reg, by rw [hdoc, List.append_assoc], ?_⟩
      rcases List.mem_pair.mp hd with rfl | rfl
      · exact hbare
      · exact hbare.text_empty_append

end Stmt

theorem Doc.Opens.exists_textFrom {d : Doc} {paren : Bool} (h : d.Opens paren) (unit : String)
    (base k : Nat) : ∃ c rest, d.textFrom unit base k = String.ofList (c :: rest) ∧
      (c = '(' ↔ paren = true) := by
  obtain ⟨c, hc, hparen⟩ := h
  obtain ⟨rest, hrest⟩ := List.head?_eq_some_iff.mp (head?_textFrom hc unit base k)
  exact ⟨c, rest, by rw [← hrest, String.ofList_toList], hparen⟩

theorem Doc.textFrom_margin_append (d : Doc) (unit : String) (base : Nat) :
    (margin ++ d).textFrom unit base 0 = Line.margin unit base ++ d.textFrom unit base 0 := by
  simp [margin, textFrom, Piece.textAt, Piece.depth?]

theorem Printer.eq_output_of_print (p : Printer) {d : Doc} {t : String} (h : p.print d = .ok t) :
    t = (d.draw (.ofUnit p.style.indent)).output := by
  unfold Printer.print at h
  cases hd : d.violation? with
  | none => simpa [hd] using h.symm
  | some v => simp [hd] at h

theorem Node.balanced_of_opensPlainly {n : Node}
    (h : ∀ m ∈ n.preorder, m.opensPlainly = true) : (n.doc reg).Balanced := by
  refine n.balanced_doc fun m hm hcustom => ?_
  have hplain := not_isCustom_of_opensPlainly (h m hm)
  rw [hcustom] at hplain
  contradiction

theorem Printer.begins_with_paren_iff (p : Printer) :
    (∀ e : Expr, (∀ m ∈ (Node.expr e).preorder, m.opensPlainly = true) →
      ∀ text, p.printExpr e = .ok text →
        (text.toList.head? = some '(' ↔ e.startsWithParen = true)) ∧
    ∀ c : Chunk, (∀ m ∈ (Node.chunk c).preorder, m.opensPlainly = true) →
      ∀ text, p.printChunk c = .ok text →
        ∀ b ∈ (Node.chunk c).blocks, ∀ s ∈ b, s.beginsWithExpr = true →
          s.doc p.registry <:+: Stmt.blockDoc p.registry c.block ∧
          ∀ k : Canvas, ∃ first rest, first ≠ '(' ∧
            (s.doc p.registry).draw k = k.append (k.margin ++ String.ofList (first :: rest)) := by
  constructor
  · intro e h text htext
    have hbalanced : (e.doc p.registry).Balanced := Node.balanced_of_opensPlainly h
    have hopens : (e.doc p.registry).Opens e.startsWithParen := Node.opens_doc (.expr e) h e rfl
    obtain ⟨c, rest, hrest, hparen⟩ := hopens.exists_textFrom p.style.indent 0 0
    have houtput : text = "" ++ (e.doc p.registry).textFrom p.style.indent 0 0 := by
      rw [p.eq_output_of_print htext, hbalanced.draw_eq]
      rfl
    rw [houtput, hrest]
    simpa using hparen
  · intro c h text htext b hb s hs hexpr
    have hcustom : ∀ m ∈ (Node.chunk c).preorder, m.isCustom = false :=
      fun m hm => Node.not_isCustom_of_opensPlainly (h m hm)
    have hok := (p.exists_printChunk_eq_ok_iff c).mp ⟨text, htext⟩
    refine ⟨Node.infix_stmtDoc (.chunk c) hcustom hok hb hs, fun k => ?_⟩
    have hblock := (Node.reaches_of_mem_blocks hb).forall_mem_preorder h
    have hstmt := (Node.forall_mem_preorder.mp hblock).2 (.stmt s) (List.mem_map_of_mem hs)
    have hbalanced : (s.doc p.registry).Balanced := Node.balanced_of_opensPlainly hstmt
    obtain ⟨d, hd, hopens⟩ := Stmt.exists_opens p.registry hexpr hstmt
    obtain ⟨first, rest, hrest, hparen⟩ := hopens.exists_textFrom k.unit k.depth 0
    refine ⟨first, rest, by simpa using hparen, ?_⟩
    rw [hbalanced.draw_eq, hd, textFrom_margin_append, hrest]
    rfl

theorem Printer.begins_with_paren_iff_call :
    (Printer.printExpr {} (.index (.binary (.symbol "a") .plus (.symbol "b")) (.symbol "c")) =
        .ok "(a + b)[c]" ∧
      ("(a + b)[c]".toList.head? = some '(' ↔
        (Expr.index (.binary (.symbol "a") .plus (.symbol "b")) (.symbol "c")).startsWithParen)) ∧
    Printer.printChunk {} ⟨[.assign [.symbol "x"] .assign
        [.function ⟨none, [], [], none, [.call ⟨.expr (.symbol "f"), [.call []]⟩]⟩]]⟩ =
        .ok "x = function()\n  ;(f)()\nend\n" ∧
      ∀ k : Canvas, ∃ first rest, first ≠ '(' ∧
        ((Stmt.call ⟨.expr (.symbol "f"), [.call []]⟩).doc []).draw k =
          k.append (k.margin ++ String.ofList (first :: rest)) := by
  have hexpr : Printer.printExpr {} (.index (.binary (.symbol "a") .plus (.symbol "b"))
      (.symbol "c")) = .ok "(a + b)[c]" := by decide +kernel
  have hchunk : Printer.printChunk {} ⟨[.assign [.symbol "x"] .assign
      [.function ⟨none, [], [], none, [.call ⟨.expr (.symbol "f"), [.call []]⟩]⟩]]⟩ =
      .ok "x = function()\n  ;(f)()\nend\n" := by decide +kernel
  refine ⟨⟨hexpr, (Printer.begins_with_paren_iff {}).1 _ (by decide +kernel) _ hexpr⟩, hchunk, ?_⟩
  exact ((Printer.begins_with_paren_iff {}).2 _ (by decide +kernel) _ hchunk
    [.call ⟨.expr (.symbol "f"), [.call []]⟩] (.tail _ (.head _)) _ (.head _) rfl).2

end LuauSyntax
