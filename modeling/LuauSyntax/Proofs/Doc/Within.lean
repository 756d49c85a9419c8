import LuauSyntax.Proofs.FirstViolation

namespace LuauSyntax

open Doc

namespace Doc

variable {α : Type} {x y d e : Doc} {ds : List Doc} {f : α → Doc} {a : α} {l : List α}

theorem infix_append (h : x <:+: d ∨ x <:+: e) : x <:+: d ++ e :=
  h.elim List.infix_append_of_infix_left List.infix_append_of_infix_right

-- Two steps at once, for the long documents of statements.
theorem infix_append_append (h : x <:+: d ∨ x <:+: e ∨ x <:+: y) : x <:+: d ++ e ++ y := by
  rcases h with h | h | h
  · exact infix_append (.inl (infix_append (.inl h)))
  · exact infix_append (.inl (infix_append (.inr h)))
  · exact infix_append (.inr h)

theorem infix_nested (h : x <:+: d) : x <:+: nested d :=
  infix_append (.inl (List.infix_cons h))

theorem infix_wrapIf (wrap : Bool) (h : x <:+: d) : x <:+: wrapIf wrap d := by
  cases wrap with
  | false => exact h
  | true => exact infix_append_append (.inr (.inl h))

theorem infix_flatten_map (ha : a ∈ l) (h : x <:+: f a) : x <:+: (l.map f).flatten :=
  h.trans (List.infix_of_mem_flatten (List.mem_map_of_mem ha))

theorem infix_separated (s : String) (hd : d ∈ ds) (h : x <:+: d) : x <:+: separated s ds := by
  induction ds with
  | nil => simp at hd
  | cons c ds ih =>
      cases ds with
      | nil =>
          have hc : d = c := by simpa using hd
          simpa [separated, List.intercalate, hc] using h
      | cons c' ds =>
          rw [separated_cons_cons]
          rcases List.mem_cons.mp hd with rfl | hd
          · exact infix_append_append (.inl h)
          · exact infix_append (.inr (ih hd))

theorem infix_separated_map (s : String) (ha : a ∈ l) (h : x <:+: f a) :
    x <:+: separated s (l.map f) :=
  infix_separated s (List.mem_map_of_mem ha) h

theorem infix_table (positional padded : Bool) (hd : d ∈ ds) :
    d <:+: table positional padded ds := by
  have hfields : ds.isEmpty = false := by simpa using List.ne_nil_of_mem hd
  rw [table, hfields]
  cases positional with
  | true =>
      have hlist := infix_separated ", " hd (List.infix_refl d)
      exact infix_append_append (.inr (.inl hlist))
  | false =>
      have hlines : d <:+: ds.flatMap fun d => margin ++ d ++ text ",\n" :=
        infix_flatten_map hd (List.infix_append margin d _)
      exact infix_append_append (.inr (.inl (infix_nested hlines)))

end Doc

variable {reg : Registry} {p : Node}

theorem Expr.infix_docs {e : Expr} {es : List Expr} (he : e ∈ es) :
    e.doc reg <:+: separated ", " (docs reg es) := by
  rw [docs_eq_map]
  exact infix_separated_map ", " he (List.infix_refl _)

theorem Expr.infix_doc (e : Expr) (hcustom : (Node.expr e).isCustom = false)
    (hp : p ∈ e.children) : p.doc reg <:+: e.doc reg := by
  cases e with
  | custom n => simp [Node.isCustom] at hcustom
  | literal | symbol | varArgs => simp [children] at hp
  | table t =>
      obtain ⟨fs, padded⟩ := t
      obtain ⟨f, hf, rfl⟩ : ∃ f ∈ fs, Node.tableField f = p := by simpa [children] using hp
      rw [doc, TableField.docs_eq_map]
      exact infix_table _ padded (List.mem_map_of_mem hf)
  | _ =>
      simp only [children, doc, Segment.docs_eq_map, ElseIfExpr.docs_eq_map, List.mem_cons,
        List.mem_append, List.mem_map, List.not_mem_nil, or_false] at hp ⊢
      grind only [Node.doc, List.infix_refl, ← infix_append, ← infix_wrapIf, <= infix_flatten_map]

theorem Ty.infix_doc (t : Ty) (hp : p ∈ (Node.type t).parts) : p.doc reg <:+: t.doc reg := by
  cases t with
  | basic | boolean | string => simp [Node.parts, Node.children, children] at hp
  | table fs =>
      have hfs : fs.isEmpty = false := by
        cases fs with
        | nil => simp [Node.parts, Node.children, children] at hp
        | cons f fs => rfl
      simp only [Node.parts, Node.children, children, doc, hfs, TypeField.docs_eq_map,
        List.mem_map, Bool.false_eq_true, if_false] at hp ⊢
      grind only [Node.doc, List.infix_refl, ← infix_append, <= infix_separated_map]
  | tuple ts r =>
      have hdocs : ∃ d ∈ docs reg ts ++ restDoc reg r, p.doc reg <:+: d := by
        simp only [Node.parts, Node.children, children, Node.ofTypes, Node.ofType?, docs_eq_map,
          List.mem_append, List.mem_map, Option.mem_toList] at hp ⊢
        rcases hp with ⟨t, ht, rfl⟩ | ⟨t, rfl, rfl⟩
        · exact ⟨t.doc reg, .inl ⟨t, ht, rfl⟩, List.infix_refl _⟩
        · exact ⟨text "..." ++ t.doc reg, .inr (List.mem_singleton_self _),
            infix_append (.inr (List.infix_refl _))⟩
      obtain ⟨d, hd, hwithin⟩ := hdocs
      exact infix_append_append (.inr (.inl (infix_separated ", " hd hwithin)))
  | _ =>
      simp only [Node.parts, Node.children, children, Node.ofTypes, doc, docs_eq_map,
        unionDocs_eq_map, interDocs_eq_map, TypeArg.docs_eq_map, List.mem_cons, List.mem_append,
        List.mem_map, List.not_mem_nil, or_false] at hp ⊢
      grind only [Node.doc, List.infix_refl, ← infix_append, ← infix_wrapIf,
        <= infix_separated_map]

theorem infix_parameters {ps : List Parameter} {ts : Annotations} (h : ps.length = ts.length)
    {t : Ty} (ht : some t ∈ ts) :
    ∃ d ∈ List.zipWith (· ++ ·) (ps.map Parameter.doc) (Ty.annotationDocs reg ts),
      t.doc reg <:+: d := by
  induction ps generalizing ts with
  | nil =>
      have hts : ts = [] := List.length_eq_zero_iff.mp h.symm
      simp [hts] at ht
  | cons q ps ih =>
      obtain ⟨u, ts, rfl⟩ := List.exists_cons_of_length_eq_add_one h.symm
      rcases List.mem_cons.mp ht with rfl | ht
      · exact ⟨_, List.mem_cons_self, infix_append (.inr (infix_append (.inr (List.infix_refl _))))⟩
      · obtain ⟨d, hd, hwithin⟩ := ih (by simpa using h) ht
        exact ⟨d, List.mem_cons_of_mem _ hd, hwithin⟩

theorem infix_annotated {ns : List String} {ts : Annotations} {t : Ty}
    (ht : some t ∈ ts.take ns.length) (hbasic : t.isBasic = false) :
    ∃ d ∈ annotated ns (Ty.localDocs reg ts), t.doc reg <:+: d := by
  induction ns generalizing ts with
  | nil => simp at ht
  | cons n ns ih =>
      cases ts with
      | nil => simp at ht
      | cons u ts =>
          have hcons : annotated (n :: ns) (Ty.localDocs reg (u :: ts)) =
              (text n ++ (Ty.localDocs reg [u]).flatten) :: annotated ns (Ty.localDocs reg ts) := by
            cases u <;> simp [Ty.localDocs, annotated]
          rw [hcons]
          rcases List.mem_cons.mp ht with rfl | ht
          · refine ⟨_, List.mem_cons_self, infix_append (.inr ?_)⟩
            simpa [Ty.localDocs, hbasic] using infix_append (.inr (List.infix_refl _))
          · obtain ⟨d, hd, hwithin⟩ := ih ht
            exact ⟨d, List.mem_cons_of_mem _ hd, hwithin⟩

def Node.DrawnIn (reg : Registry) (p : Node) (d : Doc) : Prop :=
  ∀ b ∈ p.blocks, ∃ q, p.Reaches q ∧ b ∈ q.blocks ∧ q.doc reg <:+: d

theorem Node.DrawnIn.whole {d : Doc} (h : p.doc reg <:+: d) : p.DrawnIn reg d :=
  fun _ hb => ⟨p, .self p, hb, h⟩

theorem Node.DrawnIn.mono {d e : Doc} (h : p.DrawnIn reg d) (hde : d <:+: e) : p.DrawnIn reg e := by
  intro b hb
  obtain ⟨q, hq, hmem, hwithin⟩ := h b hb
  exact ⟨q, hq, hmem, hwithin.trans hde⟩

theorem Node.DrawnIn.of_blocks {d : Doc} (h : p.blocks = []) : p.DrawnIn reg d := by
  simp [DrawnIn, h]

theorem Node.DrawnIn.of_part {q : Node} {d : Doc} (hq : p.parts = [q]) (hblock : p.block? = none)
    (h : q.DrawnIn reg d) : p.DrawnIn reg d := by
  intro b hb
  have hb : b ∈ q.blocks := by simpa [blocks_eq p, hblock, hq] using hb
  obtain ⟨m, hm, hmem, hwithin⟩ := h b hb
  exact ⟨m, .part (by simp [hq]) hm, hmem, hwithin⟩

theorem FunctionBody.drawnIn (b : FunctionBody) (hok : (Node.functionBody b).violation? reg = none)
    (hp : p ∈ (Node.functionBody b).parts) : p.DrawnIn reg (b.doc reg) := by
  obtain ⟨gs, ps, ts, r, body⟩ := b
  have hlength : ps.length = ts.length := by simpa [Node.violation?] using hok
  simp only [Node.parts, Node.ofAnnotations, Node.ofType?, List.mem_append, List.mem_map,
    List.reduceOption_mem_iff, Option.mem_toList, List.mem_singleton] at hp
  simp only [doc, hlength, ne_eq, not_true_eq_false, if_false]
  rcases hp with ((⟨q, -, rfl⟩ | ⟨t, ht, rfl⟩) | ⟨t, rfl, rfl⟩) | rfl
  · exact .of_blocks (Node.blocks_eq _)
  · obtain ⟨d, hd, hwithin⟩ := @infix_parameters reg ps ts hlength t ht
    have hlist := infix_separated ", " hd hwithin
    apply Node.DrawnIn.whole
    grind only [Node.doc, ← infix_append, ← infix_append_append]
  · apply Node.DrawnIn.whole
    grind only [Node.doc, Ty.annotationDoc, List.infix_refl, ← infix_append, ← infix_append_append]
  · apply Node.DrawnIn.whole
    grind only [Node.doc, List.infix_refl, ← infix_append, ← infix_nested]

theorem Stmt.drawnIn_localDecl (ns : List String) (ts : Annotations) (vs : List Expr)
    (hp : p ∈ (Node.stmt (.localDecl ns ts vs)).parts) :
    p.DrawnIn reg ((Stmt.localDecl ns ts vs).doc reg) := by
  simp only [Node.parts, Node.ofAnnotations, Node.ofExprs, List.mem_append, List.mem_map,
    List.reduceOption_mem_iff] at hp
  unfold Stmt.doc
  split
  · -- The body stands right after the name, without the expression that it is the value of.
    rename_i n b hts
    rcases hp with ⟨t, ht, rfl⟩ | ⟨e, he, rfl⟩
    · have hgiven := List.any_eq_false.mp hts (some t) (List.mem_of_mem_take ht)
      simp at hgiven
    · have hb : e = .function b := by simpa using he
      rw [hb]
      exact .of_part (q := .functionBody b) rfl rfl
        (.whole (List.infix_append (_ ++ text n) _ newline))
  · rename_i ns vs _ _ _ _
    rcases hp with ⟨t, ht, rfl⟩ | ⟨e, he, rfl⟩
    · cases hbasic : t.isBasic with
      | true => exact .of_blocks (Ty.blocks_of_isBasic hbasic)
      | false =>
          obtain ⟨d, hd, hwithin⟩ := @infix_annotated reg ns ts t ht hbasic
          have hnames := infix_separated ", " hd hwithin
          exact .whole (infix_append_append (.inl (infix_append (.inr hnames))))
    · have hvs : vs.isEmpty = false := by simpa using List.ne_nil_of_mem he
      have hvalues : e.doc reg <:+: text " = " ++ separated ", " (Expr.docs reg vs) :=
        infix_append (.inr (Expr.infix_docs he))
      simp only [hvs, Bool.false_eq_true, if_false]
      exact .whole (infix_append_append (.inr (.inl hvalues)))

theorem Stmt.drawnIn_repeatUntil (b : Block) (c : Expr) (hp : p ∈ [Node.block b, .expr c]) :
    p.DrawnIn reg ((Stmt.repeatUntil b c).doc reg) := by
  have hcases : p = .block b ∨ p = .expr c := by simpa using hp
  unfold doc
  rcases hcases with rfl | rfl
  · apply Node.DrawnIn.whole
    grind only [Node.doc, List.infix_refl, ← infix_append, ← infix_append_append, ← infix_nested]
  · split
    · -- Two negations are left out, so the expression below them is what is drawn.
      rename_i e
      exact .of_part (q := .expr (.unary .not e)) rfl rfl (.of_part (q := .expr e) rfl rfl
        (.whole (List.infix_append _ (e.doc reg) newline)))
    · exact .whole (List.infix_append _ (c.doc reg) newline)

theorem Expr.drawnIn_stepDoc (e : Expr) :
    (Node.expr e).DrawnIn reg (Expr.stepDoc reg (some e)) := by
  cases h : e.isUnitStep with
  | true =>
      cases e with
      | literal v => exact .of_blocks rfl
      | _ => simp [isUnitStep, asNumber?] at h
  | false =>
      simp only [Expr.stepDoc, h, Bool.false_eq_true, if_false]
      exact .whole (infix_append (.inr (List.infix_refl _)))

theorem Stmt.drawnIn_numericFor (n : String) (a z : Expr) (s : Option Expr) (b : Block)
    (hp : p ∈ (Stmt.numericFor n a z s b).children) :
    p.DrawnIn reg ((Stmt.numericFor n a z s b).doc reg) := by
  simp only [children, Node.ofExprs, List.mem_cons, List.mem_append, List.mem_map,
    Option.mem_toList, List.not_mem_nil, or_false, doc] at hp ⊢
  rcases hp with (rfl | rfl | ⟨e, rfl, rfl⟩) | rfl
  · apply Node.DrawnIn.whole
    grind only [Node.doc, List.infix_refl, ← infix_append, ← infix_append_append]
  · apply Node.DrawnIn.whole
    grind only [Node.doc, List.infix_refl, ← infix_append, ← infix_append_append]
  · refine (Expr.drawnIn_stepDoc e).mono ?_
    grind only [Node.doc, List.infix_refl, ← infix_append, ← infix_append_append]
  · apply Node.DrawnIn.whole
    grind only [Node.doc, List.infix_refl, ← infix_append, ← infix_append_append, ← infix_nested]

theorem Stmt.drawnIn (s : Stmt) (hcustom : (Node.stmt s).isCustom = false)
    (hp : p ∈ (Node.stmt s).parts) : p.DrawnIn reg (s.doc reg) := by
  cases s with
  | custom n => simp [Node.isCustom] at hcustom
  | breakLoop | continueLoop | goto | label | comment =>
      simp [Node.parts, Node.children, children] at hp
  | localDecl ns ts vs => exact drawnIn_localDecl ns ts vs hp
  | repeatUntil b c => exact drawnIn_repeatUntil b c hp
  | numericFor n a z s b => exact drawnIn_numericFor n a z s b hp
  | call c =>
      have hc : p = .call c := by simpa [Node.parts, Node.children, children] using hp
      obtain ⟨h, ss⟩ := c
      rw [hc]
      apply Node.DrawnIn.whole
      cases h with
      | name n =>
          exact ⟨margin, newline, (doc_call_name reg n ss).symm⟩
      | expr e =>
          exact ⟨margin ++ text ";", newline, (doc_call_expr reg e ss).symm⟩
  | ifThen c t bs e =>
      apply Node.DrawnIn.whole
      simp only [Node.parts, Node.children, children, List.mem_cons, List.mem_append, List.mem_map,
        Option.mem_toList, doc, ElseIf.docs_eq_map] at hp ⊢
      grind only [Node.doc, elseDoc, List.infix_refl, ← infix_append, ← infix_append_append,
        ← infix_nested, <= infix_flatten_map]
  | returns vs =>
      apply Node.DrawnIn.whole
      obtain ⟨v, hv, rfl⟩ := List.mem_map.mp hp
      have hvs : vs.isEmpty = false := by simpa using List.ne_nil_of_mem hv
      simp only [doc, hvs, Bool.false_eq_true, if_false]
      exact infix_append_append (.inr (.inl (infix_append (.inr (Expr.infix_docs hv)))))
  | typeDecl x n gs t =>
      simp only [Node.parts, Node.children, children, Node.ofGenerics, List.mem_append,
        List.mem_map, Option.mem_toList, List.mem_singleton] at hp
      rcases hp with ⟨gs, rfl, rfl⟩ | rfl
      · cases gs with
        | nil => exact .of_blocks (Node.blocks_eq _)
        | cons g gs =>
            apply Node.DrawnIn.whole
            rw [doc, GenericParam.declDoc_cons]
            grind only [List.infix_refl, ← infix_append, ← infix_append_append]
      · apply Node.DrawnIn.whole
        rw [doc]
        grind only [Node.doc, List.infix_refl, ← infix_append, ← infix_append_append]
  | _ =>
      apply Node.DrawnIn.whole
      simp only [Node.parts, Node.children, children, Node.ofExprs, doc, Expr.docs_eq_map,
        List.mem_cons, List.mem_append, List.mem_map, List.not_mem_nil, or_false] at hp ⊢
      grind only [Node.doc, List.infix_refl, ← infix_append, ← infix_append_append, ← infix_nested,
        <= infix_separated_map]

theorem ElseIf.infix_doc (b : ElseIf) (hp : p ∈ b.children) : p.doc reg <:+: b.doc reg := by
  obtain ⟨c, b⟩ := b
  simp only [children, doc, List.mem_cons, List.not_mem_nil, or_false] at hp ⊢
  grind only [Node.doc, List.infix_refl, ← infix_append, ← infix_nested]

theorem ElseIfExpr.infix_doc (b : ElseIfExpr) (hp : p ∈ b.children) :
    p.doc reg <:+: b.doc reg := by
  obtain ⟨c, v⟩ := b
  simp only [children, doc, List.mem_cons, List.not_mem_nil, or_false] at hp ⊢
  grind only [Node.doc, List.infix_refl, ← infix_append]

theorem Segment.infix_doc (s : Segment) (hp : p ∈ s.children) : p.doc reg <:+: s.doc reg := by
  cases s with
  | text t => simp [children] at hp
  | expr e =>
      rw [List.mem_singleton.mp hp]
      exact List.infix_append _ _ _

theorem TableField.infix_doc (f : TableField) (hp : p ∈ f.children) :
    p.doc reg <:+: f.doc reg := by
  cases f with
  | _ =>
      simp only [children, doc, List.mem_cons, List.not_mem_nil, or_false] at hp ⊢
      grind only [Node.doc, List.infix_refl, ← infix_append]

theorem Call.infix_doc (c : Call) (hp : p ∈ c.children) : p.doc reg <:+: c.doc reg := by
  obtain ⟨h, ss⟩ := c
  simp only [children, doc, Suffix.docs_eq_map, List.mem_cons, List.mem_map] at hp ⊢
  grind only [Node.doc, List.infix_refl, ← infix_append, <= infix_flatten_map]

theorem CallHead.infix_doc (h : CallHead) (hp : p ∈ h.children) : p.doc reg <:+: h.doc reg := by
  cases h with
  | name n => simp [children] at hp
  | expr e =>
      rw [List.mem_singleton.mp hp]
      exact List.infix_append _ _ _

theorem Suffix.infix_doc (s : Suffix) (hp : p ∈ s.children) : p.doc reg <:+: s.doc reg := by
  cases s with
  | dot n => simp [children] at hp
  | call as =>
      rw [List.mem_singleton.mp hp]
      exact List.infix_refl _
  | method n as =>
      rw [List.mem_singleton.mp hp]
      exact ⟨text ":" ++ text n, [], by simp [Node.doc, doc]⟩
  | brackets k =>
      rw [List.mem_singleton.mp hp]
      exact List.infix_append _ _ _

theorem GenericParam.infix_doc (g : GenericParam) (hp : p ∈ g.children) :
    p.doc reg <:+: g.doc reg := by
  obtain ⟨n, b, d⟩ := g
  simp only [children, Node.ofType?, doc, List.mem_append, List.mem_map, Option.mem_toList] at hp ⊢
  grind only [Node.doc, Ty.introducedDoc, List.infix_refl, ← infix_append]

theorem GenericParam.infix_docs {g : GenericParam} {gs : Generics} (hg : g ∈ gs) :
    g.doc reg <:+: separated ", " (docs reg gs) := by
  rw [docs_eq_map]
  exact infix_separated_map ", " hg (List.infix_refl _)

theorem TypeField.infix_doc (f : TypeField) (hp : p ∈ f.children) : p.doc reg <:+: f.doc reg := by
  cases f with
  | _ =>
      simp only [children, doc, List.mem_cons, List.not_mem_nil, or_false] at hp ⊢
      grind only [Node.doc, List.infix_refl, ← infix_append]

theorem TypeArg.infix_doc (a : TypeArg) (hp : p ∈ a.children) : p.doc reg <:+: a.doc reg := by
  obtain ⟨n, t⟩ := a
  rw [List.mem_singleton.mp hp]
  cases n with
  | none => exact List.infix_refl _
  | some n => exact infix_append (.inr (List.infix_refl _))

theorem Node.drawnIn (n : Node) (hcustom : n.isCustom = false) (hok : n.violation? reg = none)
    (hp : p ∈ n.parts) : p.DrawnIn reg (n.doc reg) := by
  cases n with
  | stmt s => exact s.drawnIn hcustom hp
  | functionBody b => exact b.drawnIn hok hp
  | expr e => exact .whole (e.infix_doc hcustom hp)
  | type t => exact .whole (t.infix_doc hp)
  | chunk c =>
      have hblock : p = .block c.block := List.mem_singleton.mp hp
      exact .whole (hblock ▸ List.infix_refl _)
  | block b =>
      obtain ⟨s, hs, rfl⟩ := List.mem_map.mp hp
      apply DrawnIn.whole
      rw [doc, doc, Stmt.blockDoc_eq_flatMap]
      exact infix_flatten_map hs (List.infix_refl _)
  | args as =>
      obtain ⟨e, he, rfl⟩ := List.mem_map.mp hp
      exact .whole (infix_append_append (.inr (.inl (Expr.infix_docs he))))
  | generics gs =>
      obtain ⟨g, hg, rfl⟩ := List.mem_map.mp hp
      exact .whole (infix_append_append (.inr (.inl (GenericParam.infix_docs hg))))
  | parameter q => simp [parts, children] at hp
  | elseIf b => exact .whole (b.infix_doc hp)
  | elseIfExpr b => exact .whole (b.infix_doc hp)
  | segment s => exact .whole (s.infix_doc hp)
  | tableField f => exact .whole (f.infix_doc hp)
  | call c => exact .whole (c.infix_doc hp)
  | callHead h => exact .whole (h.infix_doc hp)
  | suffix s => exact .whole (s.infix_doc hp)
  | genericParam g => exact .whole (g.infix_doc hp)
  | typeField f => exact .whole (f.infix_doc hp)
  | typeArg a => exact .whole (a.infix_doc hp)

theorem Node.infix_blockDoc (n : Node) (hcustom : ∀ m ∈ n.preorder, m.isCustom = false)
    (hok : (n.doc reg).violation? = none) {b : Block} (hb : b ∈ n.blocks) :
    Stmt.blockDoc reg b <:+: n.doc reg := by
  have hreached : ∀ m, n.Reaches m → b ∈ m.blocks → Stmt.blockDoc reg b <:+: m.doc reg := by
    clear hb
    induction n using Node.inductionOn with
    | step n ih =>
        obtain ⟨hself, hchildren⟩ := forall_mem_preorder.mp hcustom
        obtain ⟨hfine, hfaults⟩ := (violation?_doc_eq_none_iff hself).mp hok
        have hparts : ∀ p ∈ n.parts, ∀ m, p.Reaches m → b ∈ m.blocks →
            Stmt.blockDoc reg b <:+: m.doc reg := by
          intro p hp
          have hchild := n.parts_subset_children hp
          exact ih p hchild (hchildren p hchild) (List.findSome?_eq_none_iff.mp hfaults p hp)
        rintro m (_ | ⟨hp, hm⟩) hb
        · rw [blocks_eq, List.mem_append, List.mem_flatMap] at hb
          rcases hb with hb | ⟨p, hp, hb⟩
          · cases n with
            | block b' =>
                have hself : b = b' := by simpa [block?] using hb
                exact hself ▸ List.infix_refl _
            | _ => simp [block?] at hb
          · obtain ⟨q, hq, hmem, hwithin⟩ := drawnIn n hself hfine hp b hb
            exact (hparts p hp q hq hmem).trans hwithin
        · exact hparts _ hp m hm hb
  exact hreached n (.self n) hb

theorem Node.infix_stmtDoc (n : Node) (hcustom : ∀ m ∈ n.preorder, m.isCustom = false)
    (hok : (n.doc reg).violation? = none) {b : Block} (hb : b ∈ n.blocks) {s : Stmt} (hs : s ∈ b) :
    s.doc reg <:+: n.doc reg := by
  have hblock : s.doc reg <:+: Stmt.blockDoc reg b := by
    rw [Stmt.blockDoc_eq_flatMap]
    exact infix_flatten_map hs (List.infix_refl _)
  exact hblock.trans (n.infix_blockDoc hcustom hok hb)

end LuauSyntax
