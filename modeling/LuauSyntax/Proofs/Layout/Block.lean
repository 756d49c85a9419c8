import LuauSyntax.Proofs.Layout.Tree
import LuauSyntax.Sample

namespace LuauSyntax

open Doc

variable {reg : Registry}

open scoped Node.Unfolding

theorem Node.LaidOut.of_framed {s : Stmt}
    (h : Framed reg (s.doc reg) ((Node.stmt s).parts.flatMap Node.blocks)) :
    (Node.stmt s).LaidOut reg := by
  obtain ⟨ls, hls, -, hends⟩ := h
  have hblocks : (Node.stmt s).blocks = (Node.stmt s).parts.flatMap Node.blocks :=
    Node.blocks_eq (.stmt s)
  exact ⟨ls, hblocks ▸ hls, hends⟩

theorem FunctionName.inline {n : FunctionName}
    (h : ∀ t ∈ n.path ++ n.method.toList, '\n' ∉ t.toList) : Inline reg n.doc [] := by
  obtain ⟨path, method⟩ := n
  have hpath : Inline reg (text (String.intercalate "." path)) [] :=
    .text (Text.not_mem_intercalate (by decide) fun t ht => h t (by simp [ht]))
  cases method with
  | none => exact hpath.append .nil
  | some m =>
      have hm : '\n' ∉ m.toList := h m (by simp)
      exact hpath.append ((Inline.text (t := ":") (by decide)).concatText _ hm)

theorem inline_annotated {ns : List String} {ts : Annotations} (hns : ∀ n ∈ ns, '\n' ∉ n.toList)
    (hts : ∀ m ∈ Node.ofAnnotations (ts.take ns.length), m.LaidOut reg) :
    Inline reg (separated ", " (annotated ns (Ty.localDocs reg ts)))
      ((Node.ofAnnotations (ts.take ns.length)).flatMap Node.blocks) := by
  have hparts : ∃ bss, List.Forall₂ (Inline reg) (annotated ns (Ty.localDocs reg ts)) bss ∧
      bss.flatten = (Node.ofAnnotations (ts.take ns.length)).flatMap Node.blocks := by
    induction ns generalizing ts with
    | nil => exact ⟨[], .nil, by simp [Node.ofAnnotations]⟩
    | cons n ns ih =>
        have hn : Inline reg (text n) [] := .text (hns n (by simp))
        have hrest : ∀ m ∈ ns, '\n' ∉ m.toList := fun m hm => hns m (by simp [hm])
        cases ts with
        | nil =>
            obtain ⟨bss, hbss, hflat⟩ := @ih [] hrest (by simp [Node.ofAnnotations])
            exact ⟨[] :: bss, .cons hn hbss, by simpa [Node.ofAnnotations] using hflat⟩
        | cons t ts =>
            cases t with
            | none =>
                obtain ⟨bss, hbss, hflat⟩ := @ih ts hrest fun m hm =>
                  hts m (by simpa [Node.ofAnnotations] using hm)
                exact ⟨[] :: bss, .cons (hn.append .nil) hbss,
                  by simpa [Node.ofAnnotations] using hflat⟩
            | some t =>
                obtain ⟨bss, hbss, hflat⟩ := @ih ts hrest fun m hm =>
                  hts m (List.mem_cons_of_mem _ hm)
                have ht : Inline reg (if t.isBasic then [] else text ": " ++ t.doc reg)
                    (Node.type t).blocks := by
                  split
                  · rename_i hbasic
                    rw [Ty.blocks_of_isBasic hbasic]
                    exact .nil
                  · have h : Inline reg (t.doc reg) (Node.type t).blocks :=
                      hts (.type t) (by simp [Node.ofAnnotations])
                    exact h.consText _ (by decide)
                refine ⟨_ :: bss, .cons (hn.append ht) hbss, ?_⟩
                simp [Node.ofAnnotations, hflat]
  obtain ⟨bss, hbss, hflat⟩ := hparts
  rw [← hflat]
  exact Inline.separated_forall₂ (by decide) hbss

theorem inline_values (intro : String) (hintro : '\n' ∉ intro.toList) {vs : List Expr}
    (h : ∀ m ∈ Node.ofExprs vs, m.LaidOut reg) :
    Inline reg (if vs.isEmpty then [] else text intro ++ separated ", " (Expr.docs reg vs))
      ((Node.ofExprs vs).flatMap Node.blocks) := by
  cases vs with
  | nil => exact .nil
  | cons v vs => exact (inline_exprs h).consText _ hintro

theorem Expr.inline_stepDoc {e : Option Expr} (h : ∀ m ∈ Node.ofExprs e.toList, m.LaidOut reg) :
    Inline reg (Expr.stepDoc reg e) ((Node.ofExprs e.toList).flatMap Node.blocks) := by
  cases e with
  | none => exact .nil
  | some e =>
      have he := (h (.expr e) (by simp [Node.ofExprs])).expr
      cases hunit : e.isUnitStep with
      | true =>
          have hblocks : (Node.expr e).blocks = [] := by
            cases e <;> first | rfl | simp [Expr.isUnitStep, Expr.asNumber?] at hunit
          simpa [Expr.stepDoc, Node.ofExprs, hunit, hblocks] using (Inline.nil : Inline reg [] [])
      | false =>
          simpa [Expr.stepDoc, Node.ofExprs, hunit] using he.consText ", " (by decide)

theorem laid_nested {b : Block} (h : (Node.block b).LaidOut reg) :
    ∃ ls, Laid reg 1 (nested (Stmt.blockDoc reg b)) (Node.block b).blocks ls := by
  obtain ⟨ls, hls⟩ := h
  exact ⟨_, hls.nested⟩

theorem Laid.exists_append {least : Nat} {d e : Doc} {bs cs : List Block}
    (hd : ∃ ls, Laid reg least d bs ls) (he : ∃ ls, Laid reg least e cs ls) :
    ∃ ls, Laid reg least (d ++ e) (bs ++ cs) ls := by
  obtain ⟨ls, hls⟩ := hd
  obtain ⟨ms, hms⟩ := he
  exact ⟨ls ++ ms, hls.append hms⟩

theorem ElseIf.laid (b : ElseIf) (ih : ∀ m ∈ b.children, m.LaidOut reg) :
    ∃ ls, Laid reg 1 (b.doc reg) (b.children.flatMap Node.blocks) ls := by
  obtain ⟨c, b⟩ := b
  have hc := (ih (.expr c) (by simp)).expr
  obtain ⟨r, hr⟩ := hc.laid "elseif " " then" (by decide) (by decide)
  have hb := laid_nested (ih (.block b) (by simp))
  simpa [ElseIf.doc] using Laid.exists_append ⟨_, hr⟩ hb

theorem Stmt.laid_elseDoc {b : Option Block} (h : ∀ m ∈ b.toList.map Node.block, m.LaidOut reg) :
    ∃ ls, Laid reg 1 (Stmt.elseDoc reg b) ((b.toList.map Node.block).flatMap Node.blocks) ls := by
  cases b with
  | none => exact ⟨[], .nil⟩
  | some b =>
      have hb := laid_nested (h (.block b) (by simp))
      simpa [Stmt.elseDoc] using Laid.exists_append ⟨_, .line (t := "else") (by decide)⟩ hb

theorem Stmt.framed_localDecl (ns : List String) (ts : Annotations) (vs : List Expr)
    (hns : ∀ n ∈ ns, '\n' ∉ n.toList)
    (ih : ∀ p ∈ (Node.stmt (.localDecl ns ts vs)).parts, ∀ m, p.Reaches m → m.LaidOut reg) :
    Framed reg ((Stmt.localDecl ns ts vs).doc reg)
      ((Node.stmt (.localDecl ns ts vs)).parts.flatMap Node.blocks) := by
  unfold Stmt.doc
  split
  · -- The body stands right after the name, without the expression that it is the value of.
    rename_i n b hts
    have hn : '\n' ∉ n.toList := hns n (by simp)
    have hbody : Inline reg (b.doc reg) (Node.functionBody b).blocks :=
      ih (.expr (.function b)) (by simp [Node.ofExprs]) (.functionBody b)
        (.part (by simp) (.self _))
    have hblocks : (Node.expr (.function b)).blocks = (Node.functionBody b).blocks := by
      simp [Node.blocks_eq (.expr _), Node.block?]
    simpa [Node.ofExprs, ofAnnotations_of_not_given hts, hblocks] using
      (hbody.consText _ hn).framed_newline "local function " (by decide)
  · rename_i ns vs _ _ _ _
    have hnames := inline_annotated hns
      fun m (hm : m ∈ Node.ofAnnotations (ts.take ns.length)) => ih m (by simp [hm]) m (.self m)
    have hvs := inline_values " = " (by decide)
      fun m (hm : m ∈ Node.ofExprs vs) => ih m (List.mem_append_right _ hm) m (.self m)
    simpa using (hnames.append hvs).framed_newline "local " (by decide)

theorem Stmt.framed_repeatUntil (b : Block) (c : Expr)
    (ih : ∀ p ∈ [Node.block b, .expr c], ∀ m, p.Reaches m → m.LaidOut reg) :
    Framed reg ((Stmt.repeatUntil b c).doc reg)
      ([Node.block b, .expr c].flatMap Node.blocks) := by
  have hb := laid_nested (ih (.block b) (by simp) (.block b) (.self _))
  have hrepeat : Framed reg (line "repeat") [] := .line (by decide)
  unfold Stmt.doc
  split
  · -- Two negations are left out, so the expression below them is what is drawn.
    rename_i e
    have he : Inline reg (e.doc reg) (Node.expr e).blocks :=
      ih (.expr (.unary .not (.unary .not e))) (by simp) (.expr e)
        (.part (p := .expr (.unary .not e)) (by simp)
          (.part (by simp) (.self _)))
    have hblocks : (Node.expr (.unary .not (.unary .not e))).blocks = (Node.expr e).blocks := by
      simp [Node.blocks_eq (.expr (.unary _ _)), Node.block?]
    simpa [hblocks] using hrepeat.around hb (he.framed_newline "until " (by decide))
  · have hc : Inline reg (c.doc reg) (Node.expr c).blocks := ih (.expr c) (by simp) _ (.self _)
    simpa using hrepeat.around hb (hc.framed_newline "until " (by decide))

theorem laid_lines {ts : List String} (h : ∀ t ∈ ts, '\n' ∉ t.toList) :
    Laid reg 1 (ts.flatMap line) [] (ts.map (Line.mk 0)) := by
  induction ts with
  | nil => exact .nil
  | cons t ts ih =>
      have ht : Laid reg 1 (line t) [] [⟨0, t⟩] := .line (h t (by simp))
      exact ht.append (ih fun u hu => h u (by simp [hu]))

theorem laidOut_comment (t : String) : (Node.stmt (.comment t)).LaidOut reg := by
  have hclean : ∀ u ∈ (Text.lines t).map fun l => if l = "" then "--" else "-- " ++ l,
      '\n' ∉ u.toList := by
    intro u hu
    obtain ⟨l, hl, rfl⟩ := List.mem_map.mp hu
    have hline := Text.newline_not_mem_of_mem_lines hl
    split <;> simp [hline]
  have hblocks : (Node.stmt (.comment t)).blocks = [] := Node.blocks_eq (.stmt (.comment t))
  refine ⟨_, by simpa [Stmt.doc, Doc.comment, List.flatMap_map, hblocks] using laid_lines hclean,
    ?_, ?_⟩
  · intro l hl
    obtain ⟨u, -, rfl⟩ := List.mem_map.mp (List.mem_of_mem_head? hl)
    rfl
  · intro l hl
    obtain ⟨u, -, rfl⟩ := List.mem_map.mp (List.mem_of_mem_getLast? hl)
    rfl

theorem Stmt.framed_ifThen (c : Expr) (t : Block) (bs : List ElseIf) (e : Option Block)
    (ih : ∀ m ∈ (Stmt.ifThen c t bs e).children, m.LaidOut reg) :
    Framed reg ((Stmt.ifThen c t bs e).doc reg)
      ((Stmt.ifThen c t bs e).children.flatMap Node.blocks) := by
  have hc := (ih (.expr c) (by simp)).expr
  have hhead := hc.framed "if " " then" (by decide) (by decide)
  have ht := laid_nested (ih (.block t) (by simp))
  have hbs : ∀ b ∈ bs, ∃ ls, Laid reg 1 (b.doc reg) (Node.elseIf b).blocks ls :=
    fun b hb => ih (.elseIf b) (by simp [hb])
  have he := Stmt.laid_elseDoc (b := e) fun m hm => ih m (by simp [hm])
  have hmiddle := Laid.exists_append (Laid.exists_append ht (Laid.flatMap hbs)) he
  simpa [Stmt.doc, ElseIf.docs_eq_map, List.flatMap_def, Function.comp_def] using
    hhead.around hmiddle (.line (t := "end") (by decide))

theorem framed_loop {d : Doc} {bs : List Block} (hd : Inline reg d bs) (first : String)
    (hfirst : '\n' ∉ first.toList) {b : Block} (hb : (Node.block b).LaidOut reg) :
    Framed reg (indented first ++ d ++ text " do\n" ++ nested (Stmt.blockDoc reg b) ++ line "end")
      (bs ++ (Node.block b).blocks) := by
  have hhead := hd.framed first " do" hfirst (by decide)
  simpa using hhead.around (laid_nested hb) (.line (t := "end") (by decide))

theorem Stmt.framed_call {c : Call} {bs : List Block} (hc : Inline reg (c.doc reg) bs) :
    Framed reg ((Stmt.call c).doc reg) bs := by
  obtain ⟨h, ss⟩ := c
  cases h with
  | name n =>
      have hdoc := hc.framed_newline "" (by decide)
      simpa [Stmt.doc, Call.doc, CallHead.doc, indented_empty] using hdoc
  | expr e =>
      have hdoc := (hc.consText ";" (by decide)).framed_newline "" (by decide)
      simpa [Stmt.doc, Call.doc, CallHead.doc, indented_empty] using hdoc

theorem Stmt.laidOut (s : Stmt) (hplain : (Node.stmt s).Plain)
    (ih : ∀ p ∈ (Node.stmt s).parts, ∀ m, p.Reaches m → m.LaidOut reg) :
    (Node.stmt s).LaidOut reg := by
  have hparts : ∀ m ∈ (Node.stmt s).parts, m.LaidOut reg := fun m hm => ih m hm m (.self m)
  cases s with
  | assign ts op vs =>
      have hts := inline_exprs fun m (hm : m ∈ Node.ofExprs ts) =>
        hparts m (List.mem_append_left _ hm)
      have hvs := inline_exprs fun m (hm : m ∈ Node.ofExprs vs) =>
        hparts m (List.mem_append_right _ hm)
      have hop := (hvs.consText " " (by decide)).consText _ op.newline_not_mem_token
      have hsides := hts.append (hop.consText " " (by decide))
      have hopen : '\n' ∉ (if ts.head?.any Expr.startsWithParen then ";" else "").toList := by
        split <;> decide
      apply Node.LaidOut.of_framed
      simpa [Stmt.doc, indented_empty] using
        (hsides.consText _ hopen).framed_newline "" (by decide)
  | localDecl ns ts vs =>
      exact .of_framed (Stmt.framed_localDecl ns ts vs
        (fun n hn => hplain.rawTexts n (by simpa using hn)) ih)
  | function n b =>
      have hn : Inline reg n.doc [] :=
        FunctionName.inline fun t ht => hplain.rawTexts t (by simpa using ht)
      have hb : Inline reg (b.doc reg) (Node.functionBody b).blocks :=
        hparts (.functionBody b) (by simp)
      apply Node.LaidOut.of_framed
      simpa [Stmt.doc] using
        (hn.append hb).framed_newline "function " (by decide)
  | ifThen c t bs e => exact .of_framed (Stmt.framed_ifThen c t bs e hparts)
  | whileDo c b =>
      have hc := (hparts (.expr c) (by simp)).expr
      have hb := hparts (.block b) (by simp)
      apply Node.LaidOut.of_framed
      simpa [Stmt.doc] using
        framed_loop hc "while " (by decide) hb
  | numericFor n a z s b =>
      have hn : '\n' ∉ n.toList := hplain.rawTexts n (by simp)
      have ha := (hparts (.expr a) (by simp)).expr
      have hz := (hparts (.expr z) (by simp)).expr
      have hs := Expr.inline_stepDoc (e := s) fun m hm =>
        hparts m (List.mem_append_left _ (.tail _ (.tail _ hm)))
      have hb := hparts (.block b) (by simp)
      have hbounds := ((ha.concatText ", " (by decide)).append hz).append hs
      have hhead := (hbounds.consText " = " (by decide)).consText _ hn
      apply Node.LaidOut.of_framed
      simpa [Stmt.doc] using
        framed_loop hhead "for " (by decide) hb
  | genericFor ns es b =>
      have hns : '\n' ∉ (String.intercalate ", " ns).toList :=
        Text.not_mem_intercalate (by decide) fun n hn =>
          hplain.rawTexts n (by simpa using hn)
      have hes := inline_exprs fun m (hm : m ∈ Node.ofExprs es) =>
        hparts m (List.mem_append_left _ hm)
      have hb := hparts (.block b) (by simp)
      have hhead := (hes.consText " in " (by decide)).consText _ hns
      apply Node.LaidOut.of_framed
      simpa [Stmt.doc] using
        framed_loop hhead "for " (by decide) hb
  | repeatUntil b c => exact .of_framed (Stmt.framed_repeatUntil b c ih)
  | doBlock b =>
      have hb := laid_nested (hparts (.block b) (by simp))
      have hdo : Framed reg (line "do") [] := .line (by decide)
      apply Node.LaidOut.of_framed
      simpa [Stmt.doc] using
        hdo.around hb (.line (t := "end") (by decide))
  | returns vs =>
      have hvs := inline_values " " (by decide) hparts
      exact .of_framed (hvs.framed_newline "return" (by decide))
  | breakLoop => exact .of_framed (.line (by decide))
  | continueLoop => exact .of_framed (.line (by decide))
  | goto l =>
      have hl : '\n' ∉ l.toList := hplain.rawTexts l (by simp)
      exact .of_framed (.line (by simpa using hl))
  | label n =>
      have hn : '\n' ∉ n.toList := hplain.rawTexts n (by simp)
      exact .of_framed (.line (by simpa using hn))
  | call c =>
      have hc : Inline reg (c.doc reg) (Node.call c).blocks :=
        hparts (.call c) (by simp)
      apply Node.LaidOut.of_framed
      simpa using Stmt.framed_call hc
  | typeDecl x n gs t =>
      have hn : '\n' ∉ n.toList := hplain.rawTexts n (by simp)
      have hgs := GenericParam.inline_declDoc fun m (hm : m ∈ Node.ofGenerics gs) =>
        hparts m (by simp [hm])
      have ht := (hparts (.type t) (by simp)).type
      have hdecl := (hgs.append (ht.consText " = " (by decide))).consText _ hn
      apply Node.LaidOut.of_framed
      simpa [Stmt.doc] using
        hdecl.framed_newline (if x then "export type " else "type ") (by split <;> decide)
  | comment t => exact laidOut_comment t
  | custom n => simpa using hplain.not_custom

theorem laidOut_block (b : Block) (ih : ∀ m ∈ b.map Node.stmt, m.LaidOut reg) :
    (Node.block b).LaidOut reg := by
  have hstmts : ∀ s ∈ b, ∃ ls, Laid reg 0 (s.doc reg) (Node.stmt s).blocks ls := by
    intro s hs
    obtain ⟨ls, hls, -⟩ := ih (.stmt s) (List.mem_map_of_mem hs)
    exact ⟨ls, hls.weaken⟩
  obtain ⟨ls, hls⟩ := Laid.flatMap hstmts
  rw [← Stmt.blockDoc_eq_flatMap] at hls
  refine ⟨ls, hls.draws, hls.clean, fun b' hb' => ?_⟩
  rw [Node.blocks_eq, List.mem_append] at hb'
  rcases hb' with hb' | hb'
  · have hself : b' = b := by simpa [Node.block?] using hb'
    rw [hself]
    exact ⟨0, ls, Nat.le_refl 0, hls.draws, by simp [Line.deeper_zero]⟩
  · exact hls.holds b' (by simpa [List.flatMap_map] using hb')

theorem Node.inline_blocks {n : Node} (hn : n.block? = none)
    (h : Inline reg (n.doc reg) (n.parts.flatMap Node.blocks)) :
    Inline reg (n.doc reg) n.blocks := by
  rw [Node.blocks_eq, hn]
  exact h

theorem Node.laidOut_step (n : Node) (hplain : n.Plain) (hok : n.violation? reg = none)
    (ih : ∀ p ∈ n.parts, ∀ m, p.Reaches m → m.LaidOut reg) : n.LaidOut reg := by
  have hparts : ∀ m ∈ n.parts, m.LaidOut reg := fun m hm => ih m hm m (.self m)
  cases n with
  | chunk c =>
      have hblocks : (Node.chunk c).blocks = (Node.block c.block).blocks := by
        simp [Node.blocks_eq (.chunk c), Node.block?]
      obtain ⟨ls, hls⟩ := hparts (.block c.block) (by simp)
      exact ⟨ls, hblocks ▸ hls⟩
  | block b => exact laidOut_block b hparts
  | stmt s => exact s.laidOut hplain ih
  | elseIf b =>
      have hblocks : (Node.elseIf b).blocks = b.children.flatMap Node.blocks :=
        Node.blocks_eq (.elseIf b)
      obtain ⟨ls, hls⟩ := b.laid hparts
      exact ⟨ls, hblocks ▸ hls⟩
  | expr e => exact inline_blocks rfl (e.inline hplain hparts)
  | elseIfExpr b => exact inline_blocks rfl (b.inline hparts)
  | segment s => exact inline_blocks rfl (s.inline hplain hparts)
  | tableField f => exact inline_blocks rfl (f.inline hplain hparts)
  | functionBody b => exact inline_blocks rfl (b.inline hplain hok hparts)
  | call c => exact inline_blocks rfl (c.inline hparts)
  | args as =>
      exact inline_blocks rfl (((inline_exprs hparts).consText "(" (by decide)).concatText
        (t := ")") (by decide))
  | callHead h => exact inline_blocks rfl (h.inline hplain hparts)
  | suffix s => exact inline_blocks rfl (s.inline hplain hparts)
  | parameter p => exact inline_blocks rfl (p.inline hplain)
  | generics gs => exact inline_blocks rfl (GenericParam.inline_generics gs hparts)
  | genericParam g => exact inline_blocks rfl (g.inline hplain hparts)
  | type t => exact inline_blocks rfl (t.inline hplain hparts)
  | typeField f => exact inline_blocks rfl (f.inline hplain hparts)
  | typeArg a => exact inline_blocks rfl (a.inline hplain hparts)

theorem Node.laidOut_of_reaches {n m : Node} (h : n.Reaches m) (hplain : n.Plain)
    (hok : (n.doc reg).violation? = none) : m.LaidOut reg := by
  -- For all that is reached and not the node alone, since a statement may draw parts of its parts.
  induction n using Node.inductionOn generalizing m with
  | step n ih =>
      obtain ⟨hself, hfaults⟩ := (violation?_doc_eq_none_iff hplain.not_custom).mp hok
      have hparts : ∀ p ∈ n.parts, ∀ m, p.Reaches m → m.LaidOut reg := by
        intro p hp m hm
        have hchild := n.parts_subset_children hp
        exact ih p hchild hm (hplain.child hchild) (List.findSome?_eq_none_iff.mp hfaults p hp)
      cases h with
      | self => exact n.laidOut_step hplain hself hparts
      | part hp hm => exact hparts _ hp _ hm

structure Stmt.Layout (reg : Registry) (s : Stmt) (ls : List Line) : Prop where
  draws : ∀ c : Canvas, (s.doc reg).draw c = c.append (Line.drawAll c.unit c.depth ls)
  clean : ∀ l ∈ ls, '\n' ∉ l.text.toList
  first : ∀ l ∈ ls.head?, l.level = 0
  last : ∀ l ∈ ls.getLast?, l.level = 0
  nested : ∀ b, .block b ∈ (Node.stmt s).shown → ∃ k own, 1 ≤ k ∧
    (∀ c : Canvas, (Stmt.blockDoc reg b).draw c = c.append (Line.drawAll c.unit c.depth own)) ∧
    own.map (Line.deeper k) <:+: ls

theorem Stmt.Layout.of_laid {s : Stmt} {ls : List Line}
    (h : Laid reg 1 (s.doc reg) (Node.stmt s).blocks ls) (hfirst : ∀ l ∈ ls.head?, l.level = 0)
    (hlast : ∀ l ∈ ls.getLast?, l.level = 0) : Stmt.Layout reg s ls :=
  ⟨h.draws, h.clean, hfirst, hlast, fun b hb => h.holds b (Node.mem_blocks_iff.mpr hb)⟩

theorem Stmt.Layout.of_draw_eq {s : Stmt} {ls ms : List Line} (h : Stmt.Layout reg s ls)
    (hms : ∀ l ∈ ms, '\n' ∉ l.text.toList)
    (hflat : ((s.doc reg).draw (.ofUnit "")).output = Line.drawAll "" 0 ms)
    (hdeep : ((s.doc reg).draw (.ofUnit " ")).output = Line.drawAll " " 0 ms) :
    Stmt.Layout reg s ms := by
  have hdraw (unit : String) :
      Line.drawAll unit 0 ls = ((s.doc reg).draw (.ofUnit unit)).output := by
    rw [h.draws]
    exact String.empty_append.symm
  rw [← Line.eq_of_drawAll_eq h.clean hms ((hdraw "").trans hflat) ((hdraw " ").trans hdeep)]
  exact h

theorem Stmt.Layout.exists_forall₂ {b : Block} (h : ∀ s ∈ b, (Node.stmt s).LaidOut reg) :
    ∃ lss, List.Forall₂ (Stmt.Layout reg) b lss ∧ (Stmt.blockDoc reg b).Stacks lss.flatten := by
  induction b with
  | nil => exact ⟨[], .nil, Stacks.nil⟩
  | cons s b ih =>
      obtain ⟨ls, hls, hfirst, hlast⟩ := h s (by simp)
      obtain ⟨lss, hlss, hdraw⟩ := ih fun t ht => h t (by simp [ht])
      exact ⟨ls :: lss, .cons (.of_laid hls hfirst hlast) hlss, hls.draws.append hdraw⟩

theorem Printer.printChunk_layout (p : Printer) (b : Block) (hplain : (Node.block b).Plain)
    (hok : ∃ text, p.printChunk ⟨b⟩ = .ok text) :
    ∀ b', .block b' ∈ (Node.block b).shown →
      ∃ lss, List.Forall₂ (Stmt.Layout p.registry) b' lss ∧
        ∀ c : Canvas, (Stmt.blockDoc p.registry b').draw c =
          c.append (Line.drawAll c.unit c.depth lss.flatten) := by
  intro b' hb'
  have hviolation : ((Node.block b).doc p.registry).violation? = none :=
    (p.exists_printChunk_eq_ok_iff ⟨b⟩).mp hok
  have hblock : (Node.block b).Reaches (.block b') :=
    Node.reaches_of_mem_blocks (Node.mem_blocks_iff.mpr hb')
  refine Stmt.Layout.exists_forall₂ fun s hs => ?_
  have hstmt : (Node.block b).Reaches (.stmt s) :=
    hblock.trans (.part (List.mem_map_of_mem hs) (.self _))
  exact Node.laidOut_of_reaches hstmt hplain hviolation

theorem Printer.printChunk_layout_method :
    List.Forall₂ (Stmt.Layout []) [Sample.method 7]
      [[⟨0, "function Module:run7(count: number): Result"⟩, ⟨1, "local total = 0"⟩,
        ⟨1, "for i = 1, count do"⟩, ⟨2, "if i % 2 == 0 then"⟩, ⟨3, "total += (i + 7) * 2"⟩,
        ⟨2, "else"⟩, ⟨3, "continue"⟩, ⟨2, "end"⟩, ⟨1, "end"⟩, ⟨1, "return \x7b"⟩,
        ⟨2, "total = total,"⟩, ⟨2, "label = \"method 7\","⟩, ⟨1, "\x7d"⟩, ⟨0, "end"⟩]] := by
  obtain ⟨lss, hlss, -⟩ := Printer.printChunk_layout {} [Sample.method 7] (by decide)
    ((Printer.exists_printChunk_eq_ok_iff _ _).mpr (by rfl)) [Sample.method 7]
    (by rw [Node.shown_eq]; exact .head _)
  obtain ⟨ls, lss, hls, -, rfl⟩ := List.forall₂_cons_left_iff.mp hlss
  exact .cons (hls.of_draw_eq (by decide) (by decide +kernel) (by decide +kernel)) .nil

end LuauSyntax
