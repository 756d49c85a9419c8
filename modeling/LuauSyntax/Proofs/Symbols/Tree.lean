import LuauSyntax.Proofs.FirstViolation
import LuauSyntax.Proofs.Node.Leaves
import LuauSyntax.Proofs.Symbols.Own

namespace LuauSyntax

open Doc Text

namespace Node

def strings : Node → List String
  | .expr (.literal (.string s)) | .type (.string s) | .stmt (.comment s) => [s]
  | n => n.rawTexts

def Clear (m : Char) (n : Node) : Prop :=
  ∀ k ∈ n.preorder, k.isCustom = false ∧ (k.symbol? = none → ∀ t ∈ k.strings, m ∉ t.toList)

instance (m : Char) : DecidablePred (Clear m) := fun n =>
  inferInstanceAs (Decidable (∀ k ∈ n.preorder, _))

variable {m : Char}

theorem Clear.not_custom {n : Node} (h : n.Clear m) : n.isCustom = false :=
  (forall_mem_preorder.mp h).1.1

theorem Clear.strings {n : Node} (h : n.Clear m) (hn : n.symbol? = none) :
    ∀ t ∈ n.strings, m ∉ t.toList :=
  (forall_mem_preorder.mp h).1.2 hn

theorem Clear.child {k n : Node} (h : n.Clear m) (hk : k ∈ n.children) : k.Clear m :=
  (forall_mem_preorder.mp h).2 k hk

theorem Clear.genericNames {n : Node} (h : n.Clear m) {gs : Option Generics}
    (hgs : ofGenerics gs ⊆ n.children) : ∀ g ∈ gs, ∀ p ∈ g, m ∉ p.name.word.toList := by
  intro g hg p hp
  have hgenerics : (Node.generics g).Clear m := h.child (hgs (by simpa [ofGenerics] using hg))
  have hparam : (Node.genericParam p).Clear m := hgenerics.child (by simpa [children] using hp)
  exact hparam.strings rfl _ (by simp [Node.strings, rawTexts])

end Node

variable {reg : Registry} {m : Char}

open scoped Node.Unfolding

attribute [local simp] Node.symbol? Node.strings List.flatMap_map

variable (hm : isOwnChar m = false)
include hm

theorem marks_declDoc (gs : Option Generics) :
    (GenericParam.declDoc reg gs).marks m =
      (Node.ofGenerics gs).flatMap fun c => (c.doc reg).marks m := by
  match gs with
  | none => rfl
  | some [] =>
      simp (disch := first | assumption | decide) [GenericParam.declDoc, Node.ofGenerics]
  | some (g :: gs) => simp [GenericParam.declDoc_cons, Node.ofGenerics]

theorem marks_literal {v : Literal} (h : (Node.expr (.literal v)).Clear m) :
    v.doc.marks m = [] := by
  cases v with
  | nil => exact marks_own hm (by decide)
  | boolean b => exact marks_boolean hm b
  | number x => exact marks_own hm x.isOwn_text
  | string s =>
      rw [Literal.doc, marks_text]
      exact marked_of_not_mem (not_mem_quoted hm (h.strings rfl s (by simp)))

theorem marks_expr {e : Expr} (h : (Node.expr e).Clear m) :
    (e.doc reg).marks m = (Node.expr e).symbol?.toList.flatMap (marked m)
      ++ e.children.flatMap fun c => (c.doc reg).marks m := by
  cases e with
  | literal v => exact marks_literal hm h
  | custom n => exact absurd h.not_custom (by simp)
  | table t =>
      obtain ⟨fs, p⟩ := t
      simp (disch := assumption) [Expr.doc]
  | _ => simp (disch := first | assumption | decide | simp) [Expr.doc]

theorem marks_genericName {n : GenericName} (h : m ∉ n.word.toList) : n.doc.marks m = [] := by
  cases n with
  | single n => exact (marks_text n).trans (marked_of_not_mem h)
  | pack n =>
      rw [GenericName.doc, marks_append, marks_own hm (by decide : IsOwn "..."), List.append_nil]
      exact (marks_text n).trans (marked_of_not_mem h)

theorem marks_namesDoc {gs : Option Generics}
    (h : ∀ g ∈ gs, ∀ p ∈ g, m ∉ p.name.word.toList) : (Generics.namesDoc gs).marks m = [] := by
  match gs with
  | none | some [] => rfl
  | some (g :: gs) =>
      have hname : ∀ p ∈ g :: gs, p.name.doc.marks m = [] :=
        fun p hp => marks_genericName hm (h _ rfl p hp)
      rw [Generics.namesDoc, marks_append, marks_append, marks_own hm (by decide),
        marks_own hm (by decide), marks_separated hm (by decide)]
      · simpa using hname
      · simp

theorem marks_introducedDoc {intro : String} (hintro : IsOwn intro) (t : Option Ty) :
    (Ty.introducedDoc reg intro t).marks m =
      (Node.ofType? t).flatMap fun c => (c.doc reg).marks m := by
  cases t <;> simp [Ty.introducedDoc, Node.ofType?, marked_of_isOwn hm hintro]

theorem marks_annotationDoc (t : Option Ty) :
    (Ty.annotationDoc reg t).marks m =
      (Node.ofType? t).flatMap fun c => (c.doc reg).marks m := by
  cases t <;> simp (disch := first | assumption | decide) [Ty.annotationDoc, Node.ofType?]

theorem marks_type {t : Ty} (h : (Node.type t).Clear m) :
    (t.doc reg).marks m = (Node.type t).parts.flatMap fun c => (c.doc reg).marks m := by
  have hstrings := h.strings rfl
  cases t with
  | basic n => simpa [Ty.doc] using marked_of_not_mem (hstrings n (by simp))
  | string s =>
      rw [Ty.doc, marks_text]
      exact marked_of_not_mem (not_mem_quoted hm (hstrings s (by simp)))
  | table fs =>
      cases fs with
      | nil => exact marks_own hm (by decide)
      | cons f fs => simp (disch := first | assumption | decide) [Ty.doc]
  | callback gs as t =>
      have hnames : (Generics.namesDoc gs).marks m = [] :=
        marks_namesDoc hm (h.genericNames (by simp))
      simp (disch := first | assumption | decide) [Ty.doc, hnames]
  | tuple ts r =>
      cases r <;>
        simp (disch := first | assumption | decide) [Ty.doc, Ty.restDoc, Node.ofType?]
  | generic b ts =>
      have hb : m ∉ b.toList := hstrings b (by simp)
      simp (disch := first | assumption | decide) [Ty.doc]
  | _ => simp (disch := first | assumption | decide) [Ty.doc]

theorem marks_parameter {p : Parameter} (h : (Node.parameter p).Clear m) : p.doc.marks m = [] := by
  cases p with
  | name n => exact (marks_text n).trans (marked_of_not_mem (h.strings rfl n (by simp)))
  | ellipsis => exact marks_own hm (by decide)

theorem marks_parameters {ps : List Parameter} (hps : ∀ p ∈ ps, p.doc.marks m = [])
    (ts : Annotations) (h : ps.length = ts.length) :
    (List.zipWith (· ++ ·) (ps.map Parameter.doc) (Ty.annotationDocs reg ts)).flatMap (marks m) =
      (Node.ofAnnotations ts).flatMap fun c => (c.doc reg).marks m := by
  induction ps generalizing ts with
  | nil =>
      have hts : ts = [] := List.length_eq_zero_iff.mp h.symm
      rw [hts]
      rfl
  | cons p ps ih =>
      obtain ⟨t, ts, rfl⟩ := List.exists_cons_of_length_eq_add_one h.symm
      obtain ⟨hp, hps⟩ := List.forall_mem_cons.mp hps
      have hrest := ih hps ts (by simpa using h)
      rw [Ty.annotationDocs, List.map_cons, List.zipWith_cons_cons, List.flatMap_cons, hrest,
        marks_append, hp, marks_annotationDoc hm]
      cases t <;> simp [Node.ofAnnotations, Node.ofType?]

theorem marks_functionBody {b : FunctionBody} (h : (Node.functionBody b).Clear m)
    (hv : (Node.functionBody b).violation? reg = none) :
    (b.doc reg).marks m =
      (Node.functionBody b).parts.flatMap fun c => (c.doc reg).marks m := by
  obtain ⟨gs, ps, ts, r, body⟩ := b
  have hlength : ps.length = ts.length := by simpa [Node.violation?] using hv
  have hnames : (Generics.namesDoc gs).marks m = [] :=
    marks_namesDoc hm (h.genericNames (by simp))
  have hps : ∀ p ∈ ps, p.doc.marks m = [] :=
    fun p hp => marks_parameter hm (h.child (by simp [hp]))
  have hparameters : (ps.flatMap fun p => p.doc.marks m) = [] := by simpa using hps
  simp (disch := first | assumption | decide) [FunctionBody.doc, hlength, hnames, hparameters,
    marks_parameters hm hps ts hlength, marks_annotationDoc hm]

theorem marks_stepDoc (e : Option Expr) (h : ∀ c ∈ e, (Node.expr c).Clear m) :
    (Expr.stepDoc reg e).marks m =
      (Node.ofExprs e.toList).flatMap fun c => (c.doc reg).marks m := by
  cases e with
  | none => rfl
  | some e =>
      cases hu : e.isUnitStep with
      | true =>
          -- Only a number can be the step that is left out.
          have he : (e.doc reg).marks m = [] := by
            cases e with
            | literal v => exact marks_literal hm (h _ rfl)
            | _ => simp [Expr.isUnitStep, Expr.asNumber?] at hu
          simp [Expr.stepDoc, hu, he]
      | false => simp (disch := first | assumption | decide) [Expr.stepDoc, hu]

theorem marks_elseDoc (b : Option Block) :
    (Stmt.elseDoc reg b).marks m =
      (b.toList.map Node.block).flatMap fun c => (c.doc reg).marks m := by
  cases b <;> simp (disch := first | assumption | decide) [Stmt.elseDoc]

theorem marks_functionName {n : FunctionName} (hpath : ∀ t ∈ n.path, m ∉ t.toList)
    (hmethod : ∀ t ∈ n.method, m ∉ t.toList) : n.doc.marks m = [] := by
  obtain ⟨path, method⟩ := n
  have hjoined : m ∉ (String.intercalate "." path).toList :=
    not_mem_intercalate ((by decide : IsOwn ".").not_mem hm) hpath
  cases method with
  | none => simp (disch := assumption) [FunctionName.doc]
  | some t =>
      have ht : m ∉ t.toList := hmethod t rfl
      simp (disch := first | assumption | decide) [FunctionName.doc]

theorem marks_annotated {ns : List String} (hns : ∀ n ∈ ns, m ∉ n.toList) (ts : Annotations)
    (hts : ∀ c ∈ Node.ofAnnotations ts, c.Clear m) :
    (annotated ns (Ty.localDocs reg ts)).flatMap (marks m) =
      (Node.ofAnnotations (ts.take ns.length)).flatMap fun c => (c.doc reg).marks m := by
  induction ns generalizing ts with
  | nil => simp [annotated, Node.ofAnnotations]
  | cons n ns ih =>
      obtain ⟨hn, hns⟩ := List.forall_mem_cons.mp hns
      cases ts with
      | nil =>
          simpa [annotated, Ty.localDocs, Node.ofAnnotations, marked_of_not_mem hn]
            using ih hns [] (by simp [Node.ofAnnotations])
      | cons t ts =>
          cases t with
          | none =>
              simpa [annotated, Ty.localDocs, Node.ofAnnotations, marked_of_not_mem hn]
                using ih hns ts (by simpa [Node.ofAnnotations] using hts)
          | some t =>
              obtain ⟨ht, hts⟩ :
                  (Node.type t).Clear m ∧ ∀ c ∈ Node.ofAnnotations ts, c.Clear m := by
                simpa [Node.ofAnnotations] using hts
              have hrest := ih hns ts hts
              cases hb : t.isBasic with
              | true =>
                  -- A basic type is left out of the text, but it is a part: it has no mark either.
                  have hdoc : (t.doc reg).marks m = [] := by
                    rw [marks_type hm ht]
                    cases t <;> first | rfl | simp [Ty.isBasic] at hb
                  simpa [annotated, Ty.localDocs, Node.ofAnnotations, hb, hdoc,
                    marked_of_not_mem hn] using hrest
              | false =>
                  simpa [annotated, Ty.localDocs, Node.ofAnnotations, hb, marked_of_not_mem hn,
                    marked_of_isOwn hm (by decide : IsOwn ": ")] using hrest

theorem marks_localDecl {ns : List String} {ts : Annotations} {vs : List Expr}
    (h : (Node.stmt (.localDecl ns ts vs)).Clear m) :
    ((Stmt.localDecl ns ts vs).doc reg).marks m =
      (Node.stmt (.localDecl ns ts vs)).parts.flatMap fun c => (c.doc reg).marks m := by
  have hns : ∀ n ∈ ns, m ∉ n.toList := h.strings rfl
  have hts : ∀ c ∈ Node.ofAnnotations ts, c.Clear m := fun c hc => h.child (by simp [hc])
  unfold Stmt.doc
  split
  · rename_i n b hgiven
    have hn : m ∉ n.toList := hns n (by simp)
    simp (disch := first | assumption | decide) [ofAnnotations_of_not_given hgiven, Expr.doc]
  · rename_i ns vs _ _ _ _
    cases vs <;> simp (disch := first | assumption | decide) [marks_annotated hm hns ts hts]

theorem marks_repeatUntil (b : Block) (c : Expr) :
    ((Stmt.repeatUntil b c).doc reg).marks m =
      [Node.block b, .expr c].flatMap fun c => (c.doc reg).marks m := by
  unfold Stmt.doc
  split <;> simp (disch := first | assumption | decide | simp) [Expr.doc]

theorem marks_stmt {s : Stmt} (h : (Node.stmt s).Clear m) :
    (s.doc reg).marks m = (Node.stmt s).parts.flatMap fun c => (c.doc reg).marks m := by
  have hstrings := h.strings rfl
  cases s with
  | localDecl ns ts vs => exact marks_localDecl hm h
  | custom n => exact absurd h.not_custom (by simp)
  | assign ts op vs =>
      have hopen : marked m (if ts.head?.any Expr.startsWithParen then ";" else "") = [] := by
        split <;> exact marked_of_isOwn hm (by decide)
      simp (disch := first | assumption | decide | simp) [Stmt.doc, hopen]
  | function n b =>
      have hpath : ∀ t ∈ n.path, m ∉ t.toList := fun t ht => hstrings t (by simp [ht])
      have hmethod : ∀ t ∈ n.method, m ∉ t.toList := fun t ht => hstrings t (by simp_all)
      have hname := marks_functionName hm hpath hmethod
      simp (disch := first | assumption | decide) [Stmt.doc, hname]
  | ifThen c t bs e =>
      simp (disch := first | assumption | decide) [Stmt.doc, marks_elseDoc hm]
  | repeatUntil b c => exact marks_repeatUntil hm b c
  | returns vs => cases vs <;> simp (disch := first | assumption | decide) [Stmt.doc]
  | call c =>
      obtain ⟨head, ss⟩ := c
      cases head <;> simp (disch := first | assumption | decide) [Stmt.doc, Call.doc, CallHead.doc]
  | numericFor n a z s b =>
      have hn : m ∉ n.toList := hstrings n (by simp)
      have hs : ∀ c ∈ s, (Node.expr c).Clear m := fun c hc => h.child (by simp_all)
      simp (disch := first | assumption | decide) [Stmt.doc, marks_stepDoc hm s hs]
  | genericFor ns es b =>
      have hns : m ∉ (String.intercalate ", " ns).toList :=
        not_mem_intercalate ((by decide : IsOwn ", ").not_mem hm) hstrings
      simp (disch := first | assumption | decide) [Stmt.doc]
  | goto l =>
      have hl : m ∉ l.toList := hstrings l (by simp)
      have htext : m ∉ ("goto " ++ l).toList := by
        simpa [hl] using (by decide : IsOwn "goto ").not_mem hm
      simp (disch := assumption) [Stmt.doc]
  | label n =>
      have hn : m ∉ n.toList := hstrings n (by simp)
      have htext : m ∉ ("::" ++ n ++ "::").toList := by
        simpa [hn] using (by decide : IsOwn "::").not_mem hm
      simp (disch := assumption) [Stmt.doc]
  | typeDecl x n gs t =>
      have hn : m ∉ n.toList := hstrings n (by simp)
      have hopen : marked m (if x then "export type " else "type ") = [] := by
        cases x <;> exact marked_of_isOwn hm (by decide)
      simp (disch := first | assumption | decide) [Stmt.doc, hopen, marks_declDoc hm]
  | comment t =>
      have ht : m ∉ t.toList := hstrings t (by simp)
      simp (disch := first | assumption | decide) [Stmt.doc]
  | _ => simp (disch := first | assumption | decide) [Stmt.doc]

theorem Node.marks_doc {n : Node} (h : n.Clear m) (hv : n.violation? reg = none) :
    (n.doc reg).marks m = n.symbol?.toList.flatMap (marked m)
      ++ n.parts.flatMap fun c => (c.doc reg).marks m := by
  cases n with
  | stmt s => exact marks_stmt hm h
  | expr e => exact marks_expr hm h
  | type t => exact marks_type hm h
  | functionBody b => exact marks_functionBody hm h hv
  | chunk c => simp
  | block b => simp [Stmt.blockDoc_eq_flatMap]
  | call c =>
      obtain ⟨head, ss⟩ := c
      simp [Call.doc]
  | args as => simp (disch := first | assumption | decide)
  | parameter p => exact marks_parameter hm h
  | generics gs => simp (disch := first | assumption | decide)
  | genericParam g =>
      have hname := marks_genericName hm (h.strings rfl g.name.word (by simp))
      obtain ⟨n, b, d⟩ := g
      simp [GenericParam.doc, hname, marks_introducedDoc hm (by decide : IsOwn " extends "),
        marks_introducedDoc hm (by decide : IsOwn " = ")]
  | elseIf b =>
      obtain ⟨c, b⟩ := b
      simp (disch := first | assumption | decide) [ElseIf.doc]
  | elseIfExpr b =>
      obtain ⟨c, v⟩ := b
      simp (disch := first | assumption | decide) [ElseIfExpr.doc]
  | segment s =>
      have hstrings := h.strings rfl
      cases s with
      | text t => simpa [Segment.doc] using marked_of_not_mem (hstrings t (by simp))
      | expr e => simp (disch := first | assumption | decide) [Segment.doc]
  | tableField f =>
      have hstrings := h.strings rfl
      cases f with
      | named k v =>
          have hk : m ∉ k.toList := hstrings k (by simp)
          simp (disch := first | assumption | decide) [TableField.doc]
      | _ => simp (disch := first | assumption | decide) [TableField.doc]
  | callHead head =>
      have hstrings := h.strings rfl
      cases head with
      | name n => simpa [CallHead.doc] using marked_of_not_mem (hstrings n (by simp))
      | expr e => simp (disch := first | assumption | decide) [CallHead.doc]
  | suffix s =>
      have hstrings := h.strings rfl
      cases s with
      | method n as =>
          have hn : m ∉ n.toList := hstrings n (by simp)
          simp (disch := first | assumption | decide) [Suffix.doc]
      | dot n =>
          have hn : m ∉ n.toList := hstrings n (by simp)
          simp (disch := first | assumption | decide) [Suffix.doc]
      | _ => simp (disch := first | assumption | decide) [Suffix.doc]
  | typeField f =>
      have hstrings := h.strings rfl
      cases f with
      | named a k v =>
          have hk : m ∉ k.toList := hstrings k (by simp)
          simp (disch := first | assumption | decide) [TypeField.doc]
      | indexed a k v => simp (disch := first | assumption | decide) [TypeField.doc]
  | typeArg a =>
      have hstrings := h.strings rfl
      obtain ⟨n, t⟩ := a
      cases n with
      | none => simp [TypeArg.doc]
      | some n =>
          have hn : m ∉ n.toList := hstrings n (by simp)
          simp (disch := first | assumption | decide) [TypeArg.doc]

end LuauSyntax
