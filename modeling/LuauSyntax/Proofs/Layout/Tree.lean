import LuauSyntax.Proofs.FirstViolation
import LuauSyntax.Proofs.Layout.Document
import LuauSyntax.Proofs.Layout.Texts

namespace LuauSyntax

open Doc

variable {reg : Registry}

namespace Node

def LaidOut (reg : Registry) : Node → Prop
  | .chunk c => ∃ ls, Laid reg 0 (Stmt.blockDoc reg c.block) (Node.chunk c).blocks ls
  | .block b => ∃ ls, Laid reg 0 (Stmt.blockDoc reg b) (Node.block b).blocks ls
  | .elseIf b => ∃ ls, Laid reg 1 (b.doc reg) (Node.elseIf b).blocks ls
  | .stmt s => ∃ ls, Laid reg 1 (s.doc reg) (Node.stmt s).blocks ls ∧
      (∀ l ∈ ls.head?, l.level = 0) ∧ ∀ l ∈ ls.getLast?, l.level = 0
  | n => Inline reg (n.doc reg) n.blocks

variable {e : Expr} {t : Ty}

theorem LaidOut.expr (h : (Node.expr e).LaidOut reg) :
    Inline reg (e.doc reg) (Node.expr e).blocks := h

theorem LaidOut.type (h : (Node.type t).LaidOut reg) :
    Inline reg (t.doc reg) (Node.type t).blocks := h

end Node

open scoped Node.Unfolding

theorem Node.Plain.genericNames {n : Node} (h : n.Plain) {gs : Option Generics}
    (hgs : ofGenerics gs ⊆ n.children) : ∀ g ∈ gs.getD [], '\n' ∉ g.name.word.toList := by
  cases gs with
  | none => simp
  | some gs =>
      intro g hg
      have hdecl : (Node.generics gs).Plain := h.child (hgs (by simp [ofGenerics]))
      have hparam : (Node.genericParam g).Plain := hdecl.child (List.mem_map_of_mem hg)
      exact hparam.rawTexts _ (by simp)

theorem inline_exprs {es : List Expr} (h : ∀ m ∈ Node.ofExprs es, m.LaidOut reg) :
    Inline reg (separated ", " (Expr.docs reg es)) ((Node.ofExprs es).flatMap Node.blocks) := by
  rw [Expr.docs_eq_map, Node.ofExprs, List.flatMap_map]
  exact Inline.separated (by decide) fun e he => h (.expr e) (List.mem_map_of_mem he)

theorem inline_types {ts : List Ty} (h : ∀ m ∈ Node.ofTypes ts, m.LaidOut reg) :
    Inline reg (separated ", " (Ty.docs reg ts)) ((Node.ofTypes ts).flatMap Node.blocks) := by
  rw [Ty.docs_eq_map, Node.ofTypes, List.flatMap_map]
  exact Inline.separated (by decide) fun t ht => h (.type t) (List.mem_map_of_mem ht)

theorem Literal.inline (v : Literal) : Inline reg v.doc [] := by
  cases v with
  | nil => exact .text (by decide)
  | boolean b => exact .text (by cases b <;> decide)
  | number x => exact .text x.newline_not_mem_text
  | string s => exact .text (Text.newline_not_mem_quoted s)

theorem Expr.inline (e : Expr) (hplain : (Node.expr e).Plain)
    (ih : ∀ m ∈ e.children, m.LaidOut reg) :
    Inline reg (e.doc reg) (e.children.flatMap Node.blocks) := by
  cases e with
  | literal v => exact v.inline
  | symbol n => exact .text (hplain.rawTexts n (by simp))
  | varArgs => exact .text (by decide)
  | binary l op r =>
      have hl := (ih (.expr l) (by simp)).expr
      have hr := (ih (.expr r) (by simp)).expr
      have hleft := (hl.wrapIf (l.isWrappedUnder op .left)).concatText " " (by decide)
      have hop := (hleft.concatText _ op.newline_not_mem_token).concatText " " (by decide)
      simpa [Expr.doc] using hop.append (hr.wrapIf (r.isWrappedUnder op .right))
  | unary op e =>
      have he := (ih (.expr e) (by simp)).expr
      simpa [Expr.doc] using
        (he.wrapIf (e.isWrappedAfter op)).consText _ op.newline_not_mem_token
  | call c =>
      have hc : Inline reg (c.doc reg) (Node.call c).blocks := ih (.call c) (by simp)
      simpa [Expr.doc] using hc
  | function b =>
      have hb : Inline reg (b.doc reg) (Node.functionBody b).blocks :=
        ih (.functionBody b) (by simp)
      simpa [Expr.doc] using
        hb.consText "function" (by decide)
  | table t =>
      obtain ⟨fs, p⟩ := t
      have hfs : ∀ f ∈ fs, Inline reg (f.doc reg) (Node.tableField f).blocks :=
        fun f hf => ih (.tableField f) (List.mem_map_of_mem hf)
      simpa [Expr.doc, TableField.docs_eq_map, List.flatMap_map] using
        Inline.table hfs (fs.all TableField.isPositional) p
  | interpolated ss =>
      have hss : ∀ s ∈ ss, Inline reg (s.doc reg) (Node.segment s).blocks :=
        fun s hs => ih (.segment s) (List.mem_map_of_mem hs)
      have h := (Inline.flatten_map hss).between "`" "`" (by decide) (by decide)
      simpa [Expr.doc, Segment.docs_eq_map, List.flatMap_map] using h
  | assertion e t =>
      have he := (ih (.expr e) (by simp)).expr
      have ht := (ih (.type t) (by simp)).type
      simpa [Expr.doc] using
        ((he.wrapIf e.isWrappedInAssertion).concatText " :: " (by decide)).append ht
  | ifElse c t bs e =>
      have hc := (ih (.expr c) (by simp)).expr
      have ht := (ih (.expr t) (by simp)).expr
      have he := (ih (.expr e) (by simp)).expr
      have hbs : ∀ b ∈ bs, Inline reg (b.doc reg) (Node.elseIfExpr b).blocks :=
        fun b hb => ih (.elseIfExpr b) (by simp [hb])
      have h := (hc.between "if " " then " (by decide) (by decide)).append ht
      have h' := ((h.append (Inline.flatten_map hbs)).concatText " else " (by decide)).append he
      simpa [Expr.doc, ElseIfExpr.docs_eq_map, List.flatMap_map] using h'
  | index t k =>
      have ht := (ih (.expr t) (by simp)).expr
      have hk := (ih (.expr k) (by simp)).expr
      have hkey := hk.between "[" "]" (by decide) (by decide)
      simpa [Expr.doc] using (ht.wrapIf (!t.isIndexable)).append hkey
  | paren e =>
      have he := (ih (.expr e) (by simp)).expr
      simpa [Expr.doc] using
        he.between "(" ")" (by decide) (by decide)
  | custom n => simpa using hplain.not_custom

theorem Parameter.inline (p : Parameter) (hplain : (Node.parameter p).Plain) :
    Inline reg p.doc [] := by
  cases p with
  | name n => exact .text (hplain.rawTexts n (by simp))
  | ellipsis => exact .text (by decide)

theorem GenericName.inline {n : GenericName} (h : '\n' ∉ n.word.toList) : Inline reg n.doc [] := by
  cases n with
  | single n => exact .text h
  | pack n => exact (Inline.text h).concatText "..." (by decide)

theorem Generics.inline_namesDoc {gs : Option Generics}
    (h : ∀ g ∈ gs.getD [], '\n' ∉ g.name.word.toList) : Inline reg (Generics.namesDoc gs) [] := by
  match gs with
  | none | some [] => exact .nil
  | some (g :: gs) =>
      have hgs : ∀ p ∈ g :: gs, Inline reg p.name.doc [] := fun p hp => GenericName.inline (h p hp)
      have hnil : (g :: gs).flatMap (fun _ => ([] : List Block)) = [] := by simp
      have hnames := Inline.separated (s := ", ") (by decide) hgs
      rw [hnil] at hnames
      exact hnames.between "<" ">" (by decide) (by decide)

theorem Ty.inline_annotationDoc {t : Option Ty} (h : ∀ m ∈ Node.ofType? t, m.LaidOut reg) :
    Inline reg (Ty.annotationDoc reg t) ((Node.ofType? t).flatMap Node.blocks) := by
  cases t with
  | none => exact .nil
  | some t =>
      have ht := (h (.type t) (by simp [Node.ofType?])).type
      simpa [Node.ofType?, Ty.annotationDoc] using ht.consText ": " (by decide)

theorem Ty.inline_introducedDoc (intro : String) (hintro : '\n' ∉ intro.toList) {t : Option Ty}
    (h : ∀ m ∈ Node.ofType? t, m.LaidOut reg) :
    Inline reg (Ty.introducedDoc reg intro t) ((Node.ofType? t).flatMap Node.blocks) := by
  cases t with
  | none => exact .nil
  | some t =>
      have ht := (h (.type t) (by simp [Node.ofType?])).type
      simpa [Node.ofType?, Ty.introducedDoc] using ht.consText _ hintro

theorem Access.inline (a : Option Access) : Inline reg (access a) [] := by
  cases a with
  | none => exact .nil
  | some a => exact (Inline.text a.newline_not_mem_token).concatText " " (by decide)

theorem Ty.inline_tuple {ts : List Ty} {r : Option Ty}
    (h : ∀ m ∈ Node.ofTypes ts ++ Node.ofType? r, m.LaidOut reg) :
    Inline reg (separated ", " (Ty.docs reg ts ++ Ty.restDoc reg r))
      ((Node.ofTypes ts ++ Node.ofType? r).flatMap Node.blocks) := by
  have hts : List.Forall₂ (Inline reg) (Ty.docs reg ts) ((Node.ofTypes ts).map Node.blocks) := by
    rw [Ty.docs_eq_map, Node.ofTypes, List.map_map, List.forall₂_map_left_iff,
      List.forall₂_map_right_iff, List.forall₂_same]
    exact fun t ht => h (.type t) (by simp [Node.ofTypes, ht])
  have hr : List.Forall₂ (Inline reg) (Ty.restDoc reg r) ((Node.ofType? r).map Node.blocks) := by
    cases r with
    | none => exact .nil
    | some t =>
        have ht := (h (.type t) (by simp [Node.ofType?])).type
        exact .cons (ht.consText "..." (by decide)) .nil
  rw [List.flatMap_def, List.map_append]
  exact Inline.separated_forall₂ (by decide) (List.rel_append hts hr)

theorem Ty.inline (t : Ty) (hplain : (Node.type t).Plain)
    (ih : ∀ m ∈ (Node.type t).parts, m.LaidOut reg) :
    Inline reg (t.doc reg) ((Node.type t).parts.flatMap Node.blocks) := by
  cases t with
  | basic n => exact .text (hplain.rawTexts n (by simp))
  | boolean b => exact .text (by cases b <;> decide)
  | string s => exact .text (Text.newline_not_mem_quoted s)
  | array t a =>
      have ht := (ih (.type t) (by simp)).type
      have hdoc := ((Access.inline a).append ht).between "\x7b " " \x7d" (by decide) (by decide)
      simpa [Ty.doc] using hdoc
  | table fs =>
      cases fs with
      | nil => exact .text (by decide)
      | cons f fs =>
          have hfs : ∀ g ∈ f :: fs, Inline reg (g.doc reg) (Node.typeField g).blocks :=
            fun g hg => ih (.typeField g) (List.mem_map_of_mem hg)
          have hfields := Inline.separated (s := ", ") (by decide) hfs
          have hdoc := hfields.between "\x7b " " \x7d" (by decide) (by decide)
          simpa [Ty.doc, TypeField.docs_eq_map, List.flatMap_map] using hdoc
  | tuple ts r =>
      have hdoc := (Ty.inline_tuple ih).between "(" ")" (by decide) (by decide)
      simpa [Ty.doc] using hdoc
  | union ts =>
      have hts : ∀ t ∈ ts,
          Inline reg (wrapIf t.isWrappedInUnion (t.doc reg)) (Node.type t).blocks := by
        intro t ht
        exact (ih (.type t) (List.mem_map_of_mem ht)).type.wrapIf _
      simpa [Ty.doc, Node.ofTypes, Ty.unionDocs_eq_map, List.flatMap_map] using
        Inline.separated (s := " | ") (by decide) hts
  | inter ts =>
      have hts : ∀ t ∈ ts,
          Inline reg (wrapIf t.isWrappedInInter (t.doc reg)) (Node.type t).blocks := by
        intro t ht
        exact (ih (.type t) (List.mem_map_of_mem ht)).type.wrapIf _
      simpa [Ty.doc, Node.ofTypes, Ty.interDocs_eq_map, List.flatMap_map] using
        Inline.separated (s := " & ") (by decide) hts
  | optional t =>
      have ht := (ih (.type t) (by simp)).type
      simpa [Ty.doc] using
        (ht.wrapIf t.isWrappedInOptional).concatText "?" (by decide)
  | callback gs as t =>
      have ht := (ih (.type t) (by simp)).type
      have has : ∀ a ∈ as, Inline reg (a.doc reg) (Node.typeArg a).blocks :=
        fun a ha => ih (.typeArg a) (by simp [ha])
      have hgs : Inline reg (Generics.namesDoc gs) [] := Generics.inline_namesDoc
        (hplain.genericNames fun m hm => by simp [hm])
      have hargs := (Inline.separated (s := ", ") (by decide) has).concatText ") -> " (by decide)
      have hdoc := ((hgs.concatText "(" (by decide)).append hargs).append ht
      simpa [Ty.doc, TypeArg.docs_eq_map, List.flatMap_map] using hdoc
  | typeof e =>
      have he := (ih (.expr e) (by simp)).expr
      simpa [Ty.doc] using
        he.between "typeof(" ")" (by decide) (by decide)
  | variadic t =>
      have ht := (ih (.type t) (by simp)).type
      simpa [Ty.doc] using ht.consText "..." (by decide)
  | generic b ts =>
      have hb : '\n' ∉ b.toList := hplain.rawTexts b (by simp)
      have hdoc := ((inline_types ih).between "<" ">" (by decide) (by decide)).consText _ hb
      simpa [Ty.doc] using hdoc

theorem inline_parameters {ps : List Parameter} {ts : Annotations} (hlen : ps.length = ts.length)
    (hps : ∀ p ∈ ps, (Node.parameter p).Plain) (hts : ∀ m ∈ Node.ofAnnotations ts, m.LaidOut reg) :
    Inline reg (separated ", "
        (List.zipWith (· ++ ·) (ps.map Parameter.doc) (Ty.annotationDocs reg ts)))
      ((Node.ofAnnotations ts).flatMap Node.blocks) := by
  have hzip : ∃ bss, List.Forall₂ (Inline reg)
      (List.zipWith (· ++ ·) (ps.map Parameter.doc) (Ty.annotationDocs reg ts)) bss ∧
      bss.flatten = (Node.ofAnnotations ts).flatMap Node.blocks := by
    induction ps generalizing ts with
    | nil =>
        have hnil : ts = [] := List.length_eq_zero_iff.mp hlen.symm
        subst hnil
        exact ⟨[], .nil, rfl⟩
    | cons p ps ih =>
        obtain ⟨t, ts, rfl⟩ := List.exists_cons_of_length_eq_add_one hlen.symm
        have hsplit : Node.ofAnnotations (t :: ts) = Node.ofType? t ++ Node.ofAnnotations ts := by
          cases t <;> simp [Node.ofAnnotations, Node.ofType?]
        rw [hsplit] at hts
        obtain ⟨bss, hbss, hflat⟩ := ih (by simpa using hlen) (fun q hq => hps q (by simp [hq]))
          fun m hm => hts m (by simp [hm])
        have hp : Inline reg p.doc [] := p.inline (hps p (by simp))
        have ht := Ty.inline_annotationDoc (t := t) fun m hm => hts m (by simp [hm])
        refine ⟨_ :: bss, .cons (hp.append ht) hbss, ?_⟩
        simp [hsplit, hflat]
  obtain ⟨bss, hbss, hflat⟩ := hzip
  rw [← hflat]
  exact Inline.separated_forall₂ (by decide) hbss

theorem FunctionBody.inline (b : FunctionBody) (hplain : (Node.functionBody b).Plain)
    (hok : (Node.functionBody b).violation? reg = none)
    (ih : ∀ m ∈ (Node.functionBody b).parts, m.LaidOut reg) :
    Inline reg (b.doc reg) ((Node.functionBody b).parts.flatMap Node.blocks) := by
  obtain ⟨gs, ps, ts, r, body⟩ := b
  have hlen : ps.length = ts.length := by simpa [Node.violation?] using hok
  have hgs : Inline reg (Generics.namesDoc gs) [] := Generics.inline_namesDoc
    (hplain.genericNames fun m hm => by simp [hm])
  have hps := inline_parameters hlen
    (fun p hp => hplain.child (by simp [hp]))
    fun m hm => ih m (by simp [hm])
  have hr := Ty.inline_annotationDoc (t := r) fun m hm => ih m (by simp [hm])
  obtain ⟨ls, hbody⟩ : ∃ ls, Laid reg 0 (Stmt.blockDoc reg body) (Node.block body).blocks ls :=
    ih (.block body) (by simp)
  have hend := hbody.inline "" "end" (by decide) (by decide)
  have hhead := ((hgs.concatText "(" (by decide)).append hps).concatText ")" (by decide)
  have hparams : (ps.map Node.parameter).flatMap Node.blocks = [] := by
    simp [List.flatMap_map, Node.blocks_eq, Node.block?]
  simpa [FunctionBody.doc, hlen, hparams, newline] using (hhead.append hr).append hend

theorem GenericParam.inline (g : GenericParam) (hplain : (Node.genericParam g).Plain)
    (ih : ∀ m ∈ g.children, m.LaidOut reg) :
    Inline reg (g.doc reg) (g.children.flatMap Node.blocks) := by
  obtain ⟨n, b, d⟩ := g
  have hn : Inline reg n.doc [] :=
    GenericName.inline (hplain.rawTexts n.word (by simp))
  have hb := Ty.inline_introducedDoc " extends " (by decide) (t := b)
    fun m hm => ih m (by simp [hm])
  have hd := Ty.inline_introducedDoc " = " (by decide) (t := d)
    fun m hm => ih m (by simp [hm])
  simpa [GenericParam.doc] using (hn.append hb).append hd

theorem GenericParam.inline_declDoc {gs : Option Generics}
    (h : ∀ m ∈ Node.ofGenerics gs, m.LaidOut reg) :
    Inline reg (GenericParam.declDoc reg gs) ((Node.ofGenerics gs).flatMap Node.blocks) := by
  match gs with
  | none => exact .nil
  | some [] =>
      have hblocks : (Node.generics []).blocks = [] := Node.blocks_eq _
      simpa [GenericParam.declDoc, Node.ofGenerics, hblocks] using Inline.nil
  | some (g :: gs) =>
      have hgs : Inline reg ((Node.generics (g :: gs)).doc reg) (Node.generics (g :: gs)).blocks :=
        h (.generics (g :: gs)) (by simp [Node.ofGenerics])
      rw [GenericParam.declDoc_cons]
      simpa [Node.ofGenerics] using hgs

theorem GenericParam.inline_generics (gs : Generics)
    (ih : ∀ m ∈ gs.map Node.genericParam, m.LaidOut reg) :
    Inline reg ((Node.generics gs).doc reg) ((gs.map Node.genericParam).flatMap Node.blocks) := by
  have hgs : ∀ p ∈ gs, Inline reg (p.doc reg) (Node.genericParam p).blocks :=
    fun p hp => ih (.genericParam p) (List.mem_map_of_mem hp)
  have hparams := Inline.separated (s := ", ") (by decide) hgs
  rw [List.flatMap_map]
  simpa using hparams.between "<" ">" (by decide) (by decide)

theorem Segment.inline (s : Segment) (hplain : (Node.segment s).Plain)
    (ih : ∀ m ∈ s.children, m.LaidOut reg) :
    Inline reg (s.doc reg) (s.children.flatMap Node.blocks) := by
  cases s with
  | text t => exact .text (hplain.rawTexts t (by simp))
  | expr e =>
      have he := (ih (.expr e) (by simp)).expr
      simpa [Segment.doc] using
        he.between "$\x7b" "\x7d" (by decide) (by decide)

theorem ElseIfExpr.inline (b : ElseIfExpr) (ih : ∀ m ∈ b.children, m.LaidOut reg) :
    Inline reg (b.doc reg) (b.children.flatMap Node.blocks) := by
  obtain ⟨c, v⟩ := b
  have hc := (ih (.expr c) (by simp)).expr
  have hv := (ih (.expr v) (by simp)).expr
  have htest := hc.between " elseif " " then " (by decide) (by decide)
  simpa [ElseIfExpr.doc] using htest.append hv

theorem CallHead.inline (h : CallHead) (hplain : (Node.callHead h).Plain)
    (ih : ∀ m ∈ h.children, m.LaidOut reg) :
    Inline reg (h.doc reg) (h.children.flatMap Node.blocks) := by
  cases h with
  | name n => exact .text (hplain.rawTexts n (by simp))
  | expr e =>
      have he := (ih (.expr e) (by simp)).expr
      simpa [CallHead.doc] using
        he.between "(" ")" (by decide) (by decide)

theorem Suffix.inline (s : Suffix) (hplain : (Node.suffix s).Plain)
    (ih : ∀ m ∈ s.children, m.LaidOut reg) :
    Inline reg (s.doc reg) (s.children.flatMap Node.blocks) := by
  cases s with
  | call as =>
      have has : Inline reg ((Node.args as).doc reg) (Node.args as).blocks :=
        ih (.args as) (by simp)
      simpa [Suffix.doc, Node.doc] using has
  | method n as =>
      have has : Inline reg ((Node.args as).doc reg) (Node.args as).blocks :=
        ih (.args as) (by simp)
      have hn : '\n' ∉ n.toList := hplain.rawTexts n (by simp)
      simpa [Suffix.doc, Node.doc] using
        (has.consText _ hn).consText ":" (by decide)
  | dot n =>
      have hn : '\n' ∉ n.toList := hplain.rawTexts n (by simp)
      exact (Inline.text (t := ".") (by decide)).concatText _ hn
  | brackets k =>
      have hk := (ih (.expr k) (by simp)).expr
      simpa [Suffix.doc] using
        hk.between "[" "]" (by decide) (by decide)

theorem Call.inline (c : Call) (ih : ∀ m ∈ c.children, m.LaidOut reg) :
    Inline reg (c.doc reg) (c.children.flatMap Node.blocks) := by
  obtain ⟨h, ss⟩ := c
  have hhead : Inline reg (h.doc reg) (Node.callHead h).blocks :=
    ih (.callHead h) (by simp)
  have hss : ∀ s ∈ ss, Inline reg (s.doc reg) (Node.suffix s).blocks :=
    fun s hs => ih (.suffix s) (by simp [hs])
  simpa [Call.doc, Suffix.docs_eq_map, List.flatMap_map] using
    hhead.append (Inline.flatten_map hss)

theorem TableField.inline (f : TableField) (hplain : (Node.tableField f).Plain)
    (ih : ∀ m ∈ f.children, m.LaidOut reg) :
    Inline reg (f.doc reg) (f.children.flatMap Node.blocks) := by
  cases f with
  | positional v =>
      have hv := (ih (.expr v) (by simp)).expr
      simpa [TableField.doc] using hv
  | named k v =>
      have hk : '\n' ∉ k.toList := hplain.rawTexts k (by simp)
      have hv := (ih (.expr v) (by simp)).expr
      simpa [TableField.doc] using
        (hv.consText " = " (by decide)).consText _ hk
  | keyed k v =>
      have hk := (ih (.expr k) (by simp)).expr
      have hv := (ih (.expr v) (by simp)).expr
      have hkey := hk.between "[" "] = " (by decide) (by decide)
      simpa [TableField.doc] using hkey.append hv

theorem TypeField.inline (f : TypeField) (hplain : (Node.typeField f).Plain)
    (ih : ∀ m ∈ f.children, m.LaidOut reg) :
    Inline reg (f.doc reg) (f.children.flatMap Node.blocks) := by
  cases f with
  | named a k v =>
      have hk : '\n' ∉ k.toList := hplain.rawTexts k (by simp)
      have hv := (ih (.type v) (by simp)).type
      simpa [TypeField.doc] using
        (Access.inline a).append ((hv.consText ": " (by decide)).consText _ hk)
  | indexed a k v =>
      have hk := (ih (.type k) (by simp)).type
      have hv := (ih (.type v) (by simp)).type
      have hkey := hk.between "[" "]" (by decide) (by decide)
      simpa [TypeField.doc] using
        (Access.inline a).append (hkey.append (hv.consText ": " (by decide)))

theorem TypeArg.inline (a : TypeArg) (hplain : (Node.typeArg a).Plain)
    (ih : ∀ m ∈ a.children, m.LaidOut reg) :
    Inline reg (a.doc reg) (a.children.flatMap Node.blocks) := by
  obtain ⟨n, t⟩ := a
  have ht := (ih (.type t) (by simp)).type
  cases n with
  | none => simpa [TypeArg.doc] using ht
  | some n =>
      have hn : '\n' ∉ n.toList := hplain.rawTexts n (by simp)
      simpa [TypeArg.doc] using
        (ht.consText ": " (by decide)).consText _ hn

end LuauSyntax
