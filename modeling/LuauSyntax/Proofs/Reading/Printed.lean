import LuauSyntax.Proofs.Reading.Spelling

namespace LuauSyntax

variable {reg : Registry}

namespace Node

def joins : Node → Char → Bool
  | .expr e, c => Token.isNameChar c || (c == '.' && !e.isIndexable)
  | .elseIfExpr _, c => Token.isNumeralChar c
  | _, c => Token.isNameChar c

theorem joins_expr_of_isNumeralChar {e : Expr} {c : Char} (h : Token.isNumeralChar c = false) :
    (expr e).joins c = false := by
  obtain ⟨hname, hpoint⟩ := Bool.or_eq_false_iff.mp h
  simp [joins, hname, hpoint]

theorem joins_expr_of_isIndexable {e : Expr} (h : e.isIndexable = true) :
    (expr e).joins = Token.isNameChar := by
  funext c
  simp [joins, h]

theorem joins_expr_of_not_isIndexable {e : Expr} (h : e.isIndexable = false) :
    (expr e).joins = Token.isNumeralChar := by
  funext c
  simp [joins, h, Token.isNumeralChar]

def Readable (n : Node) : Prop :=
  ∀ m ∈ n.preorder, m.isReadable = true

instance (n : Node) : Decidable n.Readable :=
  inferInstanceAs (Decidable (∀ m ∈ n.preorder, m.isReadable = true))

theorem Readable.self {n : Node} (h : n.Readable) : n.isReadable = true :=
  (forall_mem_preorder.mp h).1

theorem Readable.child {m n : Node} (h : n.Readable) (hm : m ∈ n.children) : m.Readable :=
  (forall_mem_preorder.mp h).2 m hm

theorem Readable.of_children {n : Node} (h : n.isReadable = true)
    (hchildren : ∀ m ∈ n.children, m.Readable) : n.Readable :=
  forall_mem_preorder.mpr ⟨h, hchildren⟩

end Node

open Doc

theorem Suffix.exists_head_chars (s : Suffix) :
    ∃ c, (s.doc reg).chars.head? = some c ∧ Token.isNameChar c = false := by
  cases s with
  | call as => exact ⟨'(', rfl, rfl⟩
  | method n as => exact ⟨':', rfl, rfl⟩
  | dot n => exact ⟨'.', rfl, rfl⟩
  | brackets k => exact ⟨'[', rfl, rfl⟩

theorem ElseIfExpr.head_chars (b : ElseIfExpr) : (b.doc reg).chars.head? = some ' ' := by
  obtain ⟨c, v⟩ := b
  rfl

theorem Token.exists_head_ne {n : String} (hn : Token.isName n = true) {m : Char}
    (hm : Token.isNameStart m = false) : ∃ c, n.toList.head? = some c ∧ c ≠ m := by
  obtain ⟨c, hc, hstart⟩ := Token.exists_head_of_isName hn
  refine ⟨c, hc, ?_⟩
  rintro rfl
  simp [hstart] at hm

theorem Number.exists_head_text {x : Number} (h : x.isShort = true) (hpos : x.isNegative = false) :
    ∃ c, x.text.toList.head? = some c ∧ c ≠ '-' := by
  obtain ⟨n, -, -, htext⟩ := Number.text_of_isShort h
  obtain ⟨d, ds, hds⟩ := List.exists_cons_of_ne_nil (l := Nat.toDigits 10 n) (by simp)
  have hmem : d ∈ Nat.toDigits 10 n := by simp [hds]
  refine ⟨d, by simp [htext, hpos, hds], ?_⟩
  rintro rfl
  exact absurd (Nat.isDigit_of_mem_toDigits (by decide) (by decide) hmem) (by decide)

theorem Expr.isWrappedAfter_of_isIndexable {e : Expr} (h : e.isIndexable = true) (op : UnaryOp) :
    e.isWrappedAfter op = false := by
  cases e <;> simp_all [isIndexable, isWrappedAfter]

theorem Node.exists_head_chars (n : Node) (h : n.Readable) :
    ∀ e, n = .expr e → e.isWrappedAfter .minus = false →
      ∃ c, (e.doc reg).chars.head? = some c ∧ c ≠ '-' := by
  induction n using Node.inductionOn with
  | step n ih =>
      rintro e rfl hwrap
      cases e with
      | symbol n =>
          rw [Expr.doc, chars_text]
          exact Token.exists_head_ne h.self rfl
      | literal v =>
          cases v with
          | number x =>
              rw [Expr.doc, Literal.doc, chars_text]
              exact Number.exists_head_text h.self (by simpa [Expr.isWrappedAfter] using hwrap)
          | _ => exact absurd h.self (by simp [Node.isReadable])
      | varArgs => exact ⟨'.', rfl, by decide⟩
      | unary op e =>
          cases op with
          | not => exact ⟨'n', rfl, by decide⟩
          | minus => simp [Expr.isWrappedAfter] at hwrap
          | length => exact ⟨'#', rfl, by decide⟩
      | paren e => exact ⟨'(', rfl, by decide⟩
      | index t k =>
          cases ht : t.isIndexable with
          | false =>
              exact ⟨'(', by simp [Expr.doc, ht, wrapIf, chars_append, chars_text], by decide⟩
          | true =>
              have hmem : Node.expr t ∈ (Node.expr (.index t k)).children := by
                simp [Node.children, Expr.children]
              obtain ⟨c, hc, hne⟩ := ih _ hmem (h.child hmem) t rfl
                (Expr.isWrappedAfter_of_isIndexable ht .minus)
              exact ⟨c, by simp [Expr.doc, ht, wrapIf, chars_append, hc], hne⟩
      | call c =>
          obtain ⟨hd, ss⟩ := c
          cases hd with
          | name n =>
              have hcall : (Node.call ⟨.name n, ss⟩).Readable :=
                h.child (by simp [Node.children, Expr.children])
              have hhead : (Node.callHead (.name n)).Readable :=
                hcall.child (by simp [Node.children, Call.children])
              obtain ⟨c, hc, hne⟩ := Token.exists_head_ne hhead.self (m := '-') rfl
              have hchars : (Doc.chars ((Expr.call ⟨.name n, ss⟩).doc reg)).head? = some c := by
                simp [Expr.doc, Call.doc, CallHead.doc, chars_append, chars_text, hc]
              exact ⟨c, hchars, hne⟩
          | expr e => exact ⟨'(', rfl, by decide⟩
      | binary l op r => simp [Expr.isWrappedAfter] at hwrap
      | ifElse c t bs e => simp [Expr.isWrappedAfter] at hwrap
      | _ => exact absurd h.self (by simp [Node.isReadable])

theorem UnaryOp.spells {op : UnaryOp} {d : Doc} {joins : Char → Bool} {ts : List Token}
    (hd : Spells d joins ts) (hhead : op = .minus → ∃ c, d.chars.head? = some c ∧ c ≠ '-') :
    Spells (text op.token ++ d) joins (op.reading :: ts) := by
  cases op with
  | not =>
      have hnot : Spells (text "not ") (fun _ => false) [.notKw] := .word fun _ => ⟨_, _, rfl, rfl⟩
      exact hnot.append_of_free hd
  | minus =>
      have hminus : Spells (text "-") (· == '-') [.op .minus] :=
        .text fun cs hcs => Token.scan_minus fun c hc => by simpa using hcs c hc
      obtain ⟨c, hc, hne⟩ := hhead rfl
      exact hminus.append hd hc (by simpa using hne)
  | length =>
      have hhash : Spells (text "#") (fun _ => false) [.hash] := .mark fun _ => ⟨_, _, rfl, rfl⟩
      exact hhash.append_of_free hd

theorem Expr.spells_operand {e : Expr}
    (he : Spells (e.doc reg) (Node.expr e).joins (Node.expr e).tokens) (wrapped : Bool) :
    Spells (wrapIf wrapped (e.doc reg)) Token.isNumeralChar
      (Token.wrapIf wrapped (Node.expr e).tokens) := by
  refine (he.wrap (Node.joins_expr_of_isNumeralChar rfl) wrapped).mono fun c hc => ?_
  simp [Node.joins_expr_of_isNumeralChar hc]

theorem spells_brackets {k : Expr}
    (hk : Spells (k.doc reg) (Node.expr k).joins (Node.expr k).tokens) :
    Spells (text "[" ++ k.doc reg ++ text "]") (fun _ => false)
      (.bracketOpen :: (Node.expr k).tokens ++ [.bracketClose]) := by
  have hopen : Spells (text "[") (fun _ => false) [.bracketOpen] := .mark fun _ => ⟨_, _, rfl, rfl⟩
  have hclose : Spells (text "]") (fun _ => false) [.bracketClose] :=
    .mark fun _ => ⟨_, _, rfl, rfl⟩
  exact (hopen.append_of_free hk).append hclose (c := ']') rfl
    (Node.joins_expr_of_isNumeralChar rfl)

theorem Expr.spells (e : Expr) (h : (Node.expr e).Readable)
    (ih : ∀ m ∈ e.children, Spells (m.doc reg) m.joins m.tokens) :
    Spells (e.doc reg) (Node.expr e).joins (Node.expr e).tokens := by
  cases e with
  | symbol n =>
      rw [Node.joins_expr_of_isIndexable rfl]
      exact .name h.self
  | literal v =>
      cases v with
      | number x =>
          rw [Node.joins_expr_of_not_isIndexable rfl]
          exact .number h.self
      | _ => exact absurd h.self (by simp [Node.isReadable])
  | varArgs =>
      have hdots : Spells (text "...") (fun _ => false) [.ellipsis] :=
        .mark fun _ => ⟨_, _, rfl, rfl⟩
      exact hdots.mono (by simp)
  | binary l op r =>
      have hl := ih (.expr l) (by simp [Expr.children])
      have hr := ih (.expr r) (by simp [Expr.children])
      have hleft := spells_operand hl (l.isWrappedUnder op .left)
      have hop := hleft.append (Spells.spacedOp op) (c := ' ') rfl rfl
      rw [Node.joins_expr_of_not_isIndexable rfl, Node.tokens_binary]
      simpa [Expr.doc] using hop.append_of_free (spells_operand hr (r.isWrappedUnder op .right))
  | unary op e =>
      have he := ih (.expr e) (by simp [Expr.children])
      rw [Node.joins_expr_of_not_isIndexable rfl, Node.tokens_unary]
      refine UnaryOp.spells (spells_operand he (e.isWrappedAfter op)) ?_
      rintro rfl
      cases hwrap : e.isWrappedAfter .minus with
      | true => exact ⟨'(', rfl, by decide⟩
      | false =>
          exact Node.exists_head_chars (.expr e) (h.child (by simp [Node.children, Expr.children]))
            e rfl hwrap
  | call c =>
      rw [Node.joins_expr_of_isIndexable rfl]
      exact ih (.call c) (by simp [Expr.children])
  | ifElse c t bs e =>
      have hc : Spells (c.doc reg) (Node.expr c).joins (Node.expr c).tokens :=
        ih (.expr c) (by simp [Expr.children])
      have ht : Spells (t.doc reg) (Node.expr t).joins (Node.expr t).tokens :=
        ih (.expr t) (by simp [Expr.children])
      have he : Spells (e.doc reg) (Node.expr e).joins (Node.expr e).tokens :=
        ih (.expr e) (by simp [Expr.children])
      have hbs : ∀ b ∈ bs, Spells (b.doc reg) Token.isNumeralChar (Node.elseIfExpr b).tokens :=
        fun b hb => ih (.elseIfExpr b) (by simp [Expr.children, hb])
      have hif : Spells (text "if ") (fun _ => false) [.ifKw] := .word fun _ => ⟨_, _, rfl, rfl⟩
      have hthen : Spells (text " then ") (fun _ => false) [.thenKw] :=
        .spaced fun _ => ⟨_, _, rfl, rfl⟩
      have helse : Spells (text " else ") (fun _ => false) [.elseKw] :=
        .spaced fun _ => ⟨_, _, rfl, rfl⟩
      have hcondition := (hif.append_of_free hc).append hthen (c := ' ') rfl
        (Node.joins_expr_of_isNumeralChar rfl)
      have hvalue := (hcondition.append_of_free ht).mono fun c hc =>
        Node.joins_expr_of_isNumeralChar (e := t) hc
      have hbranches := hvalue.append_flatten (fun b _ => ⟨' ', b.head_chars, rfl⟩) hbs
      have hall := ((hbranches.append helse (c := ' ') rfl rfl).append_of_free he).mono fun c hc =>
        Node.joins_expr_of_isNumeralChar (e := e) hc
      rw [Node.joins_expr_of_not_isIndexable rfl, Node.tokens_ifElse]
      simpa [Expr.doc, ElseIfExpr.docs_eq_map] using hall
  | index t k =>
      have ht : Spells (t.doc reg) (Node.expr t).joins (Node.expr t).tokens :=
        ih (.expr t) (by simp [Expr.children])
      have hk : Spells (k.doc reg) (Node.expr k).joins (Node.expr k).tokens :=
        ih (.expr k) (by simp [Expr.children])
      have htarget := spells_operand ht (!t.isIndexable)
      have hkey := htarget.append (spells_brackets hk) (c := '[') rfl rfl
      rw [Node.tokens_index]
      simpa [Expr.doc] using hkey.mono fun _ _ => rfl
  | paren e =>
      have he := (ih (.expr e) (by simp [Expr.children])).wrap
        (Node.joins_expr_of_isNumeralChar rfl) true
      exact he.mono (by simp)
  | _ => exact absurd h.self (by simp [Node.isReadable])

theorem Suffix.spells (s : Suffix) (h : (Node.suffix s).Readable)
    (ih : ∀ m ∈ s.children, Spells (m.doc reg) m.joins m.tokens) :
    Spells (s.doc reg) Token.isNameChar (Node.suffix s).tokens := by
  cases s with
  | call as => exact ih (.args as) (by simp [Suffix.children])
  | method n as =>
      have has : Spells ((Node.args as).doc reg) Token.isNameChar (Node.args as).tokens :=
        ih (.args as) (by simp [Suffix.children])
      have hcolon : Spells (text ":") (fun _ => false) [.colon] := .mark fun _ => ⟨_, _, rfl, rfl⟩
      have hn : Spells (text n) Token.isNameChar [.name n] := .name h.self
      have hcall := (hcolon.append_of_free hn).append has (c := '(') rfl rfl
      rw [Node.tokens_method]
      simpa [Suffix.doc, Node.doc] using hcall
  | dot n =>
      have hdot : Spells (text ".") (· == '.') [.dot] :=
        .text fun cs hcs => Token.scan_dot fun c hc => by simpa using hcs c hc
      have hn : Spells (text n) Token.isNameChar [.name n] := .name h.self
      obtain ⟨c, hc, hne⟩ := Token.exists_head_ne h.self (m := '.') rfl
      exact hdot.append hn (by rwa [chars_text]) (by simpa using hne)
  | brackets k =>
      have hk := spells_brackets (ih (.expr k) (by simp [Suffix.children]))
      exact hk.mono fun _ _ => rfl

theorem ElseIfExpr.spells (b : ElseIfExpr)
    (ih : ∀ m ∈ b.children, Spells (m.doc reg) m.joins m.tokens) :
    Spells (b.doc reg) Token.isNumeralChar (Node.elseIfExpr b).tokens := by
  obtain ⟨c, v⟩ := b
  have hc : Spells (c.doc reg) (Node.expr c).joins (Node.expr c).tokens :=
    ih (.expr c) (by simp [ElseIfExpr.children])
  have hv : Spells (v.doc reg) (Node.expr v).joins (Node.expr v).tokens :=
    ih (.expr v) (by simp [ElseIfExpr.children])
  have helseif : Spells (text " elseif ") (fun _ => false) [.elseifKw] :=
    .spaced fun _ => ⟨_, _, rfl, rfl⟩
  have hthen : Spells (text " then ") (fun _ => false) [.thenKw] :=
    .spaced fun _ => ⟨_, _, rfl, rfl⟩
  have hcondition := (helseif.append_of_free hc).append hthen (c := ' ') rfl
    (Node.joins_expr_of_isNumeralChar rfl)
  have hall := (hcondition.append_of_free hv).mono fun c hc =>
    Node.joins_expr_of_isNumeralChar (e := v) hc
  rw [Node.tokens_elseIfExpr]
  simpa [ElseIfExpr.doc] using hall

theorem Call.spells (c : Call) (ih : ∀ m ∈ c.children, Spells (m.doc reg) m.joins m.tokens) :
    Spells (c.doc reg) Token.isNameChar (Node.call c).tokens := by
  obtain ⟨h, ss⟩ := c
  have hhead : Spells (h.doc reg) Token.isNameChar (Node.callHead h).tokens :=
    ih (.callHead h) (by simp [Call.children])
  have hss : ∀ s ∈ ss, Spells (s.doc reg) Token.isNameChar (Node.suffix s).tokens :=
    fun s hs => ih (.suffix s) (by simp [Call.children, hs])
  rw [Node.tokens_call, Call.doc, Suffix.docs_eq_map]
  exact hhead.append_flatten (fun s _ => s.exists_head_chars) hss

theorem spells_args (as : List Expr)
    (ih : ∀ m ∈ Node.ofExprs as, Spells (m.doc reg) m.joins m.tokens) :
    Spells ((Node.args as).doc reg) Token.isNameChar (Node.args as).tokens := by
  have has : ∀ a ∈ as, Spells (a.doc reg) Token.isNumeralChar (Node.expr a).tokens := by
    intro a ha
    have h : Spells (a.doc reg) (Node.expr a).joins (Node.expr a).tokens :=
      ih (.expr a) (List.mem_map_of_mem ha)
    exact h.mono fun c hc => Node.joins_expr_of_isNumeralChar hc
  have hargs := (Spells.separated rfl has).wrap rfl true
  rw [Node.tokens_args, Node.doc, Expr.docs_eq_map]
  exact hargs.mono fun _ _ => rfl

theorem CallHead.spells (h : CallHead) (hread : (Node.callHead h).Readable)
    (ih : ∀ m ∈ h.children, Spells (m.doc reg) m.joins m.tokens) :
    Spells (h.doc reg) Token.isNameChar (Node.callHead h).tokens := by
  cases h with
  | name n => exact .name hread.self
  | expr e =>
      have he := (ih (.expr e) (by simp [CallHead.children])).wrap
        (Node.joins_expr_of_isNumeralChar rfl) true
      exact he.mono fun _ _ => rfl

theorem Node.spells (n : Node) (h : n.Readable) : Spells (n.doc reg) n.joins n.tokens := by
  induction n using Node.inductionOn with
  | step n ih =>
      have hchildren : ∀ m ∈ n.children, Spells (m.doc reg) m.joins m.tokens :=
        fun m hm => ih m hm (h.child hm)
      cases n with
      | expr e => exact e.spells h hchildren
      | elseIfExpr b => exact b.spells hchildren
      | call c => exact c.spells hchildren
      | args as => exact spells_args as hchildren
      | callHead hd => exact hd.spells h hchildren
      | suffix s => exact s.spells h hchildren
      | _ => exact absurd h.self (by simp [Node.isReadable])

theorem Printer.exists_printExpr_of_readable (p : Printer) {e : Expr} (h : (Node.expr e).Readable) :
    ∃ text, p.printExpr e = .ok text ∧ Token.scan text.toList = (Node.expr e).tokens := by
  have hspells : Spells (e.doc p.registry) (Node.expr e).joins (Node.expr e).tokens :=
    Node.spells (.expr e) h
  refine ⟨String.ofList (chars (e.doc p.registry)), p.print_of_isText hspells.isText, ?_⟩
  have hscan := hspells.scans [] (by simp)
  simpa [Token.scan] using hscan

end LuauSyntax
