import LuauSyntax.Proofs.Doc.Comments
import LuauSyntax.Proofs.Hint.Edits
import LuauSyntax.Proofs.Node.Plain

namespace LuauSyntax

open Doc Transform

structure Expr.GroupsAs (e e' : Expr) : Prop where
  isWrappedUnder (op : BinaryOp) (side : Side) :
    e.isWrappedUnder op side = e'.isWrappedUnder op side
  isWrappedAfter (op : UnaryOp) : e.isWrappedAfter op = e'.isWrappedAfter op
  isIndexable : e.isIndexable = e'.isIndexable
  isWrappedInAssertion : e.isWrappedInAssertion = e'.isWrappedInAssertion
  isUnitStep : e.isUnitStep = e'.isUnitStep

theorem Expr.strip_groupsAs (e : Expr) : GroupsAs (Id.run (e.transform .strip)) e := by
  cases e with
  | table t => cases t; exact ⟨fun _ _ => rfl, fun _ => rfl, rfl, rfl, rfl⟩
  | custom n => cases n; exact ⟨fun _ _ => rfl, fun _ => rfl, rfl, rfl, rfl⟩
  | _ => exact ⟨fun _ _ => rfl, fun _ => rfl, rfl, rfl, rfl⟩

theorem Expr.startsWithParen_strip (e : Expr) :
    (Id.run (e.transform .strip)).startsWithParen = e.startsWithParen := by
  fun_induction startsWithParen e with
  | case1 => rfl
  | case2 => rfl
  | case3 t k ih =>
      rw [← t.strip_groupsAs.isIndexable, ← ih]
      rfl
  | case4 l op r ih =>
      rw [← l.strip_groupsAs.isWrappedUnder, ← ih]
      rfl
  | case5 e t ih =>
      rw [← e.strip_groupsAs.isWrappedInAssertion, ← ih]
      rfl
  | case6 e h1 h2 h3 h4 h5 =>
      cases e with
      | table t => cases t; rfl
      | custom n => cases n; rfl
      | call c =>
          obtain ⟨head, ss⟩ := c
          cases head with
          | name n => rfl
          | expr e => exact absurd rfl (h2 e ss)
      | paren e => exact absurd rfl (h1 e)
      | index t k => exact absurd rfl (h3 t k)
      | binary l op r => exact absurd rfl (h4 l op r)
      | assertion e t => exact absurd rfl (h5 e t)
      | _ => rfl

@[simp]
theorem Transform.run_atExpr_strip (e : Expr) (r : Id Expr) :
    Id.run (strip.atExpr e r) = Id.run (strip.rebuiltExpr (Id.run r)) := rfl

@[simp]
theorem Transform.rebuiltExpr_strip {e : Expr} (h : ∀ fs, e ≠ .table ⟨fs, true⟩) :
    Id.run (strip.rebuiltExpr e) = e := by
  cases e with
  | table t =>
      obtain ⟨fs, p⟩ := t
      cases p with
      | false => rfl
      | true => exact absurd rfl (h fs)
  | _ => rfl

@[simp]
theorem Transform.run_atStmt_strip (s : Stmt) (r : Id Stmt) :
    Id.run (strip.atStmt s r) = Id.run r := rfl

@[simp]
theorem Transform.run_atType_strip (t : Ty) (r : Id Ty) :
    Id.run (strip.atType t r) = Id.run r := rfl

@[simp]
theorem Transform.run_atSuffix_strip (s : Suffix) (r : Id Suffix) :
    Id.run (strip.atSuffix s r) = Id.run r := rfl

@[simp]
theorem Ty.transformAnnotations_strip (ts : Annotations) :
    Id.run (transformAnnotations strip ts) =
      ts.map (Option.map fun t => Id.run (t.transform .strip)) :=
  descends_strip.run_transformAnnotations ts

namespace Node

def isPadded : Node → Bool
  | .expr (.table t) => t.padded
  | _ => false

variable (reg : Registry)

def Uncomments (n : Node) : Prop :=
  n.isComment = false → n.stripped.doc reg = (n.doc reg).uncommented

variable {reg}

theorem map_uncomments {α : Type} {f : α → Node} {l : List α}
    (h : ∀ n ∈ l.map f, n.Uncomments reg) (hf : ∀ a, (f a).isComment = false) :
    (l.map fun a => (f a).stripped.doc reg) = l.map fun a => ((f a).doc reg).uncommented :=
  List.map_congr_left fun a ha => h (f a) (List.mem_map_of_mem ha) (hf a)

theorem Uncomments.expr {e : Expr} (h : (Node.expr e).Uncomments reg) :
    (Id.run (e.transform .strip)).doc reg = (e.doc reg).uncommented :=
  h rfl

theorem Uncomments.type {t : Ty} (h : (Node.type t).Uncomments reg) :
    (Id.run (t.transform .strip)).doc reg = (t.doc reg).uncommented :=
  h rfl

theorem Uncomments.functionBody {b : FunctionBody} (h : (Node.functionBody b).Uncomments reg) :
    (Id.run (b.transform .strip)).doc reg = (b.doc reg).uncommented :=
  h rfl

theorem Uncomments.block {b : Block} (h : (Node.block b).Uncomments reg) :
    Stmt.blockDoc reg (Id.run (Stmt.transformBlock .strip b)) =
      (Stmt.blockDoc reg b).uncommented :=
  h rfl

end Node

theorem Doc.map_uncommented_annotated (ns : List String) (ds : List Doc) :
    (annotated ns ds).map uncommented = annotated ns (ds.map uncommented) := by
  fun_induction annotated ns ds with
  | case1 => rfl
  | case2 n ns ih =>
      rw [List.map_nil] at ih
      rw [List.map_nil, annotated, List.map_cons, ih, uncommented_text]
  | case3 n ns d ds ih =>
      rw [List.map_cons, List.map_cons, annotated, ih, uncommented_append, uncommented_text]

theorem Doc.wrapIf_inj {wrap : Bool} {d e : Doc} : wrapIf wrap d = wrapIf wrap e ↔ d = e := by
  cases wrap <;> simp [wrapIf]

@[simp]
theorem GenericName.uncommented_doc (n : GenericName) : n.doc.uncommented = n.doc := by
  cases n <;> rfl

@[simp]
theorem Generics.uncommented_namesDoc (gs : Option Generics) :
    (Generics.namesDoc gs).uncommented = Generics.namesDoc gs := by
  match gs with
  | none | some [] => rfl
  | some (g :: gs) => simp [namesDoc, Function.comp_def]

@[simp]
theorem FunctionName.uncommented_doc (n : FunctionName) : n.doc.uncommented = n.doc := by
  obtain ⟨path, method⟩ := n
  cases method <;> rfl

@[simp]
theorem Parameter.uncommented_doc (p : Parameter) : p.doc.uncommented = p.doc := by
  cases p <;> rfl

theorem Parameter.map_uncommented_zipWith (ps : List Parameter) (ds : List Doc) :
    (List.zipWith (· ++ ·) (ps.map doc) ds).map uncommented =
      List.zipWith (· ++ ·) (ps.map doc) (ds.map uncommented) := by
  induction ps generalizing ds with
  | nil => rfl
  | cons p ps ih => cases ds <;> simp [ih]

@[simp]
theorem TableField.isPositional_strip (f : TableField) :
    (Id.run (f.transform .strip)).isPositional = f.isPositional := by
  cases f <;> rfl

@[simp]
theorem Ty.isWrappedInUnion_strip (t : Ty) :
    (Id.run (t.transform .strip)).isWrappedInUnion = t.isWrappedInUnion := by
  cases t <;> rfl

@[simp]
theorem Ty.isWrappedInInter_strip (t : Ty) :
    (Id.run (t.transform .strip)).isWrappedInInter = t.isWrappedInInter := by
  cases t <;> rfl

@[simp]
theorem Ty.isWrappedInOptional_strip (t : Ty) :
    (Id.run (t.transform .strip)).isWrappedInOptional = t.isWrappedInOptional := by
  cases t <;> rfl

@[simp]
theorem Ty.isBasic_strip (t : Ty) : (Id.run (t.transform .strip)).isBasic = t.isBasic := by
  cases t <;> rfl

theorem GenericParam.name_strip (g : GenericParam) :
    (Id.run (g.transform .strip)).name = g.name := by
  cases g; rfl

@[simp]
theorem Generics.namesDoc_strip (gs : Option Generics) :
    Generics.namesDoc (gs.map (List.map fun g => Id.run (g.transform .strip))) =
      Generics.namesDoc gs := by
  match gs with
  | none | some [] => rfl
  | some (g :: gs) => simp [namesDoc, GenericParam.name_strip, Function.comp_def]

open scoped Node.Unfolding

attribute [local simp] uncommented_line Text.comment? Function.comp_def

section

variable {reg : Registry}

theorem Expr.map_doc_strip {es : List Expr} (h : ∀ c ∈ Node.ofExprs es, c.Uncomments reg) :
    (es.map fun e => (Id.run (e.transform .strip)).doc reg) =
      es.map fun e => (e.doc reg).uncommented :=
  Node.map_uncomments h fun _ => rfl

theorem Ty.map_doc_strip {ts : List Ty} (h : ∀ c ∈ Node.ofTypes ts, c.Uncomments reg) :
    (ts.map fun t => (Id.run (t.transform .strip)).doc reg) =
      ts.map fun t => (t.doc reg).uncommented :=
  Node.map_uncomments h fun _ => rfl

theorem Expr.doc_strip {e : Expr} (hcustom : (Node.expr e).isCustom = false)
    (hpadded : (Node.expr e).isPadded = false) (h : ∀ c ∈ e.children, c.Uncomments reg) :
    (Id.run (e.transform .strip)).doc reg = (e.doc reg).uncommented := by
  cases e with
  | literal v => cases v <;> rfl
  | symbol n => rfl
  | varArgs => rfl
  | binary l op r =>
      have hl := (h (.expr l) (by simp)).expr
      have hr := (h (.expr r) (by simp)).expr
      simp [transform, doc, hl, hr, l.strip_groupsAs.isWrappedUnder,
        r.strip_groupsAs.isWrappedUnder]
  | unary op e =>
      have he := (h (.expr e) (by simp)).expr
      simp [transform, doc, he, e.strip_groupsAs.isWrappedAfter]
  | call c => exact h (.call c) (by simp) rfl
  | function b =>
      have hb := (h (.functionBody b) (by simp)).functionBody
      simp [transform, doc, hb]
  | table t =>
      obtain ⟨fs, padded⟩ := t
      obtain rfl : padded = false := hpadded
      have hfs : (fs.map fun f => (Id.run (f.transform .strip)).doc reg) =
          fs.map fun f => (f.doc reg).uncommented :=
        Node.map_uncomments h fun _ => rfl
      simp [transform, doc, hfs]
  | interpolated ss =>
      have hss : (ss.map fun s => (Id.run (s.transform .strip)).doc reg) =
          ss.map fun s => (s.doc reg).uncommented :=
        Node.map_uncomments h fun _ => rfl
      simp [transform, doc, hss]
  | assertion e t =>
      have he := (h (.expr e) (by simp)).expr
      have ht := (h (.type t) (by simp)).type
      simp [transform, doc, he, ht, e.strip_groupsAs.isWrappedInAssertion]
  | ifElse c t bs e =>
      have hc := (h (.expr c) (by simp)).expr
      have ht := (h (.expr t) (by simp)).expr
      have hbs : (bs.map fun b => (Id.run (b.transform .strip)).doc reg) =
          bs.map fun b => (b.doc reg).uncommented :=
        Node.map_uncomments (f := .elseIfExpr) (fun n hn => h n (by simp [List.mem_map.mp hn]))
          fun _ => rfl
      have he := (h (.expr e) (by simp)).expr
      simp [transform, doc, hc, ht, hbs, he]
  | index t k =>
      have ht := (h (.expr t) (by simp)).expr
      have hk := (h (.expr k) (by simp)).expr
      simp [transform, doc, ht, hk, t.strip_groupsAs.isIndexable]
  | paren e =>
      have he := (h (.expr e) (by simp)).expr
      simp [transform, doc, he]
  | custom n => simp at hcustom

theorem Ty.introducedDoc_strip {t : Option Ty} (h : ∀ c ∈ Node.ofType? t, c.Uncomments reg)
    (intro : String) :
    introducedDoc reg intro (t.map fun t => Id.run (t.transform .strip)) =
      (introducedDoc reg intro t).uncommented := by
  cases t with
  | none => rfl
  | some t =>
      have ht := (h (.type t) (by simp [Node.ofType?])).type
      rw [Option.map_some, introducedDoc, ht]
      rfl

theorem Ty.restDoc_strip {t : Option Ty} (h : ∀ c ∈ Node.ofType? t, c.Uncomments reg) :
    restDoc reg (t.map fun t => Id.run (t.transform .strip)) =
      (restDoc reg t).map uncommented := by
  cases t with
  | none => rfl
  | some t =>
      have ht := (h (.type t) (by simp [Node.ofType?])).type
      rw [Option.map_some, restDoc, ht]
      rfl

theorem Ty.map_wrapIf_strip {ts : List Ty} (h : ∀ c ∈ Node.ofTypes ts, c.Uncomments reg)
    (wrap : Ty → Bool) :
    (ts.map fun t => wrapIf (wrap t) ((Id.run (t.transform .strip)).doc reg)) =
      ts.map fun t => wrapIf (wrap t) (t.doc reg).uncommented :=
  List.map_congr_left fun t ht =>
    congrArg (wrapIf (wrap t)) (h (.type t) (List.mem_map_of_mem ht) rfl)

theorem Ty.doc_strip {t : Ty} (h : ∀ c ∈ t.children, c.Uncomments reg) :
    (Id.run (t.transform .strip)).doc reg = (t.doc reg).uncommented := by
  cases t with
  | basic n => rfl
  | boolean b => rfl
  | string s => rfl
  | array t a =>
      have ht := (h (.type t) (by simp)).type
      simp [transform, doc, ht]
  | table fs =>
      have hfs : (fs.map fun f => (Id.run (f.transform .strip)).doc reg) =
          fs.map fun f => (f.doc reg).uncommented :=
        Node.map_uncomments h fun _ => rfl
      cases fs with
      | nil => rfl
      | cons f fs =>
          rw [List.map_cons, List.map_cons, List.cons.injEq] at hfs
          simp [transform, doc, hfs]
  | tuple ts r =>
      obtain ⟨hts, hr⟩ := List.forall_mem_append.mp h
      simp [transform, doc, map_doc_strip hts, restDoc_strip hr]
  | union ts => simp [transform, doc, map_wrapIf_strip h]
  | inter ts => simp [transform, doc, map_wrapIf_strip h]
  | optional t =>
      have ht := (h (.type t) (by simp)).type
      simp [transform, doc, ht]
  | callback gs as t =>
      have has : (as.map fun a => (Id.run (a.transform .strip)).doc reg) =
          as.map fun a => (a.doc reg).uncommented :=
        Node.map_uncomments (f := .typeArg) (fun n hn => h n (by simp [List.mem_map.mp hn]))
          fun _ => rfl
      have ht := (h (.type t) (by simp)).type
      simp [transform, doc, has, ht]
  | typeof e =>
      have he := (h (.expr e) (by simp)).expr
      simp [transform, doc, he]
  | variadic t =>
      have ht := (h (.type t) (by simp)).type
      simp [transform, doc, ht]
  | generic b ts => simp [transform, doc, map_doc_strip h]

theorem Ty.annotationDoc_strip {t : Option Ty} (h : ∀ c ∈ Node.ofType? t, c.Uncomments reg) :
    annotationDoc reg (t.map fun t => Id.run (t.transform .strip)) =
      (annotationDoc reg t).uncommented := by
  rw [annotationDoc_eq, annotationDoc_eq, introducedDoc_strip h]

theorem Ty.annotationDocs_strip {ts : Annotations}
    (h : ∀ t ∈ ts, ∀ c ∈ Node.ofType? t, c.Uncomments reg) :
    annotationDocs reg (ts.map (Option.map fun t => Id.run (t.transform .strip))) =
      (annotationDocs reg ts).map uncommented := by
  induction ts with
  | nil => rfl
  | cons t ts ih =>
      obtain ⟨ht, hts⟩ := List.forall_mem_cons.mp h
      rw [List.map_cons, annotationDocs, annotationDocs, annotationDoc_strip ht, ih hts,
        List.map_cons]

theorem Ty.localDocs_strip {ts : Annotations}
    (h : ∀ t ∈ ts, ∀ c ∈ Node.ofType? t, c.Uncomments reg) :
    localDocs reg (ts.map (Option.map fun t => Id.run (t.transform .strip))) =
      (localDocs reg ts).map uncommented := by
  induction ts with
  | nil => rfl
  | cons t ts ih =>
      obtain ⟨ht, hts⟩ := List.forall_mem_cons.mp h
      cases t with
      | none => simp [localDocs, ih hts]
      | some t =>
          have ht := (ht (.type t) (by simp [Node.ofType?])).type
          cases hb : t.isBasic <;> simp [localDocs, ih hts, ht, hb]

theorem FunctionBody.doc_strip {b : FunctionBody} (h : ∀ c ∈ b.children, c.Uncomments reg) :
    (Id.run (b.transform .strip)).doc reg = (b.doc reg).uncommented := by
  obtain ⟨gs, ps, ts, r, body⟩ := b
  obtain ⟨h, hbody⟩ := List.forall_mem_append.mp h
  obtain ⟨h, hr⟩ := List.forall_mem_append.mp h
  obtain ⟨-, hts⟩ := List.forall_mem_append.mp h
  have hstrip : Id.run (FunctionBody.transform .strip ⟨gs, ps, ts, r, body⟩) =
      ⟨gs.map (List.map fun g => Id.run (g.transform .strip)), ps,
        ts.map (Option.map fun t => Id.run (t.transform .strip)),
        r.map fun t => Id.run (t.transform .strip), Id.run (Stmt.transformBlock .strip body)⟩ := by
    simp [FunctionBody.transform]
  have hblock := (hbody (.block body) (List.mem_singleton.mpr rfl)).block
  rw [hstrip, FunctionBody.doc, FunctionBody.doc, List.length_map]
  split
  · rfl
  · simp only [uncommented_append, uncommented_separated, uncommented_nested, uncommented_text,
      uncommented_newline, uncommented_indented, Generics.uncommented_namesDoc,
      Generics.namesDoc_strip, Parameter.map_uncommented_zipWith,
      Ty.annotationDocs_strip (Node.forall_mem_ofType? hts), Ty.annotationDoc_strip hr, hblock]

theorem Expr.any_startsWithParen_strip (e : Option Expr) :
    (e.map fun e => Id.run (e.transform .strip)).any startsWithParen =
      e.any startsWithParen := by
  cases e with
  | none => rfl
  | some e => exact e.startsWithParen_strip

theorem Expr.valuesDoc_strip {vs : List Expr} (h : ∀ c ∈ Node.ofExprs vs, c.Uncomments reg)
    (intro : String) :
    (if (vs.map fun e => Id.run (e.transform .strip)).isEmpty then []
      else text intro ++ separated ", " (docs reg (vs.map fun e => Id.run (e.transform .strip)))) =
      uncommented (if vs.isEmpty then [] else text intro ++ separated ", " (docs reg vs)) := by
  rw [List.isEmpty_map]
  split
  · rfl
  · simp [map_doc_strip h]

theorem Annotations.given_strip (ts : Annotations) :
    Annotations.given (ts.map (Option.map fun t => Id.run (t.transform .strip))) = ts.given := by
  simp [given, Function.comp_def]

theorem Stmt.doc_localFunction (reg : Registry) (n : String) {ts : Annotations}
    (h : ts.given = false) (b : FunctionBody) :
    (Stmt.localDecl [n] ts [.function b]).doc reg =
      indented "local function " ++ text n ++ b.doc reg ++ newline := by
  unfold Stmt.doc
  rw [h]

theorem Stmt.doc_localDecl {ns : List String} {ts : Annotations} {vs : List Expr}
    (h : ∀ n b, ns = [n] → vs = [.function b] → ts.given = true) :
    (Stmt.localDecl ns ts vs).doc reg =
      indented "local " ++ separated ", " (annotated ns (Ty.localDocs reg ts))
        ++ (if vs.isEmpty then [] else text " = " ++ separated ", " (Expr.docs reg vs))
        ++ newline := by
  unfold Stmt.doc
  split
  · rename_i hgiven
    simp [h _ _ rfl rfl] at hgiven
  · rfl

theorem Expr.exists_of_strip_eq_function {e : Expr} {b : FunctionBody}
    (h : Id.run (e.transform .strip) = .function b) : ∃ b', e = .function b' := by
  cases e with
  | function b' => exact ⟨b', rfl⟩
  | table t => cases t; cases h
  | custom n => cases n; cases h
  | _ => cases h

theorem Expr.exists_of_strip_eq_unary {e x : Expr} {op : UnaryOp}
    (h : Id.run (e.transform .strip) = .unary op x) :
    ∃ y, e = .unary op y ∧ Id.run (y.transform .strip) = x := by
  cases e with
  | unary op' y => cases h; exact ⟨y, rfl, rfl⟩
  | table t => cases t; cases h
  | custom n => cases n; cases h
  | _ => cases h

theorem Stmt.doc_repeatUntil (b : Block) {c : Expr} (h : ∀ e, c ≠ .unary .not (.unary .not e)) :
    (Stmt.repeatUntil b c).doc reg =
      line "repeat" ++ nested (blockDoc reg b) ++ indented "until " ++ c.doc reg ++ newline := by
  unfold Stmt.doc
  split
  · exact absurd rfl (h _)
  · rfl

theorem Stmt.doc_strip_repeatUntil {b : Block} {c : Expr}
    (h : ∀ n ∈ (Stmt.repeatUntil b c).children, n.Uncomments reg) :
    (Id.run ((Stmt.repeatUntil b c).transform .strip)).doc reg =
      ((Stmt.repeatUntil b c).doc reg).uncommented := by
  have hb := (h (.block b) (by simp)).block
  have hcond := (h (.expr c) (by simp)).expr
  by_cases hnot : ∃ e, c = .unary .not (.unary .not e)
  · obtain ⟨e, rfl⟩ := hnot
    have hnot (x : Expr) : Expr.isWrappedAfter .not (.unary .not x) = false := rfl
    have he : (Id.run (e.transform .strip)).doc reg = (e.doc reg).uncommented := by
      simpa [Expr.transform, Expr.doc, hnot, e.strip_groupsAs.isWrappedAfter, wrapIf_inj]
        using hcond
    simp [transform, Expr.transform, doc, hb, he]
  · have hc (e) (he : c = .unary .not (.unary .not e)) : False := hnot ⟨e, he⟩
    have hc' (e) (he : Id.run (c.transform .strip) = .unary .not (.unary .not e)) : False := by
      obtain ⟨y, rfl, hy⟩ := Expr.exists_of_strip_eq_unary he
      obtain ⟨z, rfl, -⟩ := Expr.exists_of_strip_eq_unary hy
      exact hc z rfl
    simp [transform, doc_repeatUntil b hc, doc_repeatUntil _ hc', hb, hcond]

theorem Stmt.doc_strip_localDecl {ns : List String} {ts : Annotations} {vs : List Expr}
    (h : ∀ c ∈ (Stmt.localDecl ns ts vs).children, c.Uncomments reg) :
    (Id.run ((Stmt.localDecl ns ts vs).transform .strip)).doc reg =
      ((Stmt.localDecl ns ts vs).doc reg).uncommented := by
  obtain ⟨hts, hvs⟩ := List.forall_mem_append.mp h
  have hts := Ty.localDocs_strip (Node.forall_mem_ofType? hts)
  have hgiven := ts.given_strip
  have hstrip : Id.run ((Stmt.localDecl ns ts vs).transform .strip) =
      .localDecl ns (ts.map (Option.map fun t => Id.run (t.transform .strip)))
        (vs.map fun e => Id.run (e.transform .strip)) := by
    simp [transform]
  rw [hstrip]
  by_cases hfunction : ∃ n b, ns = [n] ∧ vs = [.function b] ∧ ts.given = false
  · obtain ⟨n, b, rfl, rfl, hfalse⟩ := hfunction
    have hb : (Id.run (b.transform .strip)).doc reg = (b.doc reg).uncommented := by
      have hvalue : (Id.run ((Expr.function b).transform .strip)).doc reg =
          ((Expr.function b).doc reg).uncommented := hvs (.expr (.function b)) (by simp) rfl
      simpa [Expr.transform, Expr.doc] using hvalue
    have hdoc := doc_localFunction reg n (hgiven.trans hfalse) (Id.run (b.transform .strip))
    rw [doc_localFunction reg n hfalse b]
    simpa [Expr.transform, hb] using hdoc
  · have hdecl : ∀ n b, ns = [n] → vs = [.function b] → ts.given = true := by
      intro n b hn hb
      cases hf : ts.given with
      | true => rfl
      | false => exact absurd ⟨n, b, hn, hb, hf⟩ hfunction
    have hdecl' (n b) (hn : ns = [n])
        (hb : vs.map (fun e => Id.run (e.transform .strip)) = [.function b]) :
        Annotations.given (ts.map (Option.map fun t => Id.run (t.transform .strip))) = true := by
      obtain ⟨e, rfl, he⟩ := List.map_eq_singleton_iff.mp hb
      obtain ⟨b', rfl⟩ := Expr.exists_of_strip_eq_function he
      exact hgiven.trans (hdecl n b' hn rfl)
    rw [doc_localDecl hdecl, doc_localDecl hdecl', hts, Expr.valuesDoc_strip hvs]
    simp only [uncommented_append, uncommented_indented, uncommented_newline,
      uncommented_separated, map_uncommented_annotated]

theorem Stmt.elseDoc_strip {b : Option Block}
    (h : ∀ c ∈ b.toList.map Node.block, c.Uncomments reg) :
    elseDoc reg (b.map fun b => Id.run (transformBlock .strip b)) =
      (elseDoc reg b).uncommented := by
  cases b with
  | none => rfl
  | some b =>
      have hb := (h (.block b) (by simp)).block
      simp [elseDoc, hb]

theorem Expr.stepDoc_strip {e : Option Expr} (h : ∀ c ∈ Node.ofExprs e.toList, c.Uncomments reg) :
    stepDoc reg (e.map fun e => Id.run (e.transform .strip)) = (stepDoc reg e).uncommented := by
  cases e with
  | none => rfl
  | some e =>
      have he := (h (.expr e) (by simp)).expr
      cases hstep : e.isUnitStep <;> simp [stepDoc, e.strip_groupsAs.isUnitStep, hstep, he]

theorem GenericParam.declDoc_strip {gs : Option Generics}
    (h : ∀ c ∈ Node.ofGenerics gs, c.Uncomments reg) :
    declDoc reg (gs.map fun gs => gs.map fun g => Id.run (g.transform .strip)) =
      (declDoc reg gs).uncommented := by
  match gs with
  | none | some [] => rfl
  | some (g :: gs) =>
      have hgs : (Node.generics (g :: gs)).stripped.doc reg =
          ((Node.generics (g :: gs)).doc reg).uncommented :=
        h (.generics (g :: gs)) (by simp [Node.ofGenerics]) rfl
      rw [declDoc_cons, ← hgs]
      simp [declDoc_cons, Node.stripped, Node.transform]

theorem Stmt.doc_strip {s : Stmt} (hcustom : (Node.stmt s).isCustom = false)
    (hcomment : s.isComment = false) (h : ∀ c ∈ s.children, c.Uncomments reg) :
    (Id.run (s.transform .strip)).doc reg = (s.doc reg).uncommented := by
  cases s with
  | comment t => simp [isComment] at hcomment
  | custom n => simp at hcustom
  | localDecl ns ts vs => exact doc_strip_localDecl h
  | assign ts op vs =>
      obtain ⟨hts, hvs⟩ := List.forall_mem_append.mp h
      simp [transform, doc, Expr.any_startsWithParen_strip, Expr.map_doc_strip hts,
        Expr.map_doc_strip hvs]
  | function n b =>
      have hb := (h (.functionBody b) (by simp)).functionBody
      simp [transform, doc, hb]
  | ifThen c t bs e =>
      obtain ⟨hhead, helse⟩ := List.forall_mem_append.mp h
      have hc := (hhead (.expr c) (by simp)).expr
      have ht := (hhead (.block t) (by simp)).block
      have hbs : (bs.map fun b => (Id.run (b.transform .strip)).doc reg) =
          bs.map fun b => (b.doc reg).uncommented :=
        Node.map_uncomments (f := .elseIf) (fun n hn => hhead n (.tail _ (.tail _ hn))) fun _ => rfl
      simp [transform, doc, hc, ht, hbs, elseDoc_strip helse]
  | whileDo c b =>
      have hc := (h (.expr c) (by simp)).expr
      have hb := (h (.block b) (by simp)).block
      simp [transform, doc, hc, hb]
  | numericFor n a z s b =>
      obtain ⟨hhead, hbody⟩ := List.forall_mem_append.mp h
      have ha := (hhead (.expr a) (by simp)).expr
      have hz := (hhead (.expr z) (by simp)).expr
      have hs := Expr.stepDoc_strip fun n (hn : n ∈ Node.ofExprs s.toList) =>
        hhead n (.tail _ (.tail _ hn))
      have hb := (hbody (.block b) (by simp)).block
      simp [transform, doc, ha, hz, hs, hb]
  | genericFor ns es b =>
      obtain ⟨hes, hbody⟩ := List.forall_mem_append.mp h
      have hb := (hbody (.block b) (by simp)).block
      simp [transform, doc, Expr.map_doc_strip hes, hb]
  | repeatUntil b c => exact doc_strip_repeatUntil h
  | doBlock b =>
      have hb := (h (.block b) (by simp)).block
      simp [transform, doc, hb]
  | returns vs =>
      have hstrip : Id.run ((returns vs).transform .strip) =
          .returns (vs.map fun e => Id.run (e.transform .strip)) := by
        simp [transform]
      rw [hstrip, doc, doc, Expr.valuesDoc_strip h, uncommented_append, uncommented_append]
      rfl
  | breakLoop | continueLoop => rfl
  | goto l => simp [transform, doc]
  | label n => simp [transform, doc]
  | call c =>
      have hc : (Id.run (c.transform .strip)).doc reg = (c.doc reg).uncommented :=
        h (.call c) (by simp) rfl
      obtain ⟨head, ss⟩ := c
      cases head with
      | name n =>
          rw [doc_call_name, uncommented_append, uncommented_append, ← hc]
          exact doc_call_name ..
      | expr e =>
          rw [doc_call_expr, uncommented_append, uncommented_append, ← hc]
          exact doc_call_expr ..
  | typeDecl x n gs t =>
      obtain ⟨hgs, htype⟩ := List.forall_mem_append.mp h
      have ht := (htype (.type t) (by simp)).type
      simp [transform, doc, GenericParam.declDoc_strip hgs, ht]

theorem Stmt.blockDoc_strip {b : Block} (h : ∀ s ∈ b, (Node.stmt s).Uncomments reg) :
    blockDoc reg (Id.run (transformBlock .strip b)) = (blockDoc reg b).uncommented := by
  induction b with
  | nil => rfl
  | cons s b ih =>
      obtain ⟨hs, hb⟩ := List.forall_mem_cons.mp h
      have hrest := ih hb
      rw [Stmt.transformBlock_eq_map, keep_strip] at hrest ⊢
      cases hc : s.isComment with
      | true =>
          obtain ⟨t, rfl⟩ := Stmt.exists_eq_comment hc
          simpa [Stmt.blockDoc, Stmt.doc, Stmt.isComment] using hrest
      | false =>
          have hdoc : (Id.run (s.transform .strip)).doc reg = (s.doc reg).uncommented := hs hc
          rw [List.filter_cons_of_pos (by rw [hc]; rfl), List.map_cons, Stmt.blockDoc,
            Stmt.blockDoc, uncommented_append, hrest, hdoc]

theorem TableField.doc_strip {f : TableField} (h : ∀ c ∈ f.children, c.Uncomments reg) :
    (Id.run (f.transform .strip)).doc reg = (f.doc reg).uncommented := by
  cases f with
  | positional v => exact h (.expr v) (by simp) rfl
  | named k v =>
      have hv := (h (.expr v) (by simp)).expr
      simp [transform, doc, hv]
  | keyed k v =>
      have hk := (h (.expr k) (by simp)).expr
      have hv := (h (.expr v) (by simp)).expr
      simp [transform, doc, hk, hv]

theorem Suffix.doc_strip {s : Suffix} (h : ∀ c ∈ s.children, c.Uncomments reg) :
    (Id.run (s.transform .strip)).doc reg = (s.doc reg).uncommented := by
  cases s with
  | call as =>
      have has : (Node.args as).stripped.doc reg = ((Node.args as).doc reg).uncommented :=
        h (.args as) (by simp) rfl
      exact has
  | method n as =>
      have has : (Node.args as).stripped.doc reg = ((Node.args as).doc reg).uncommented :=
        h (.args as) (by simp) rfl
      rw [doc_method, uncommented_append, ← has]
      exact doc_method ..
  | dot n => rfl
  | brackets k =>
      have hk := (h (.expr k) (by simp)).expr
      simp [transform, doc, hk]

theorem TypeField.doc_strip {f : TypeField} (h : ∀ c ∈ f.children, c.Uncomments reg) :
    (Id.run (f.transform .strip)).doc reg = (f.doc reg).uncommented := by
  cases f with
  | named a k v =>
      have hv := (h (.type v) (by simp)).type
      simp [transform, doc, hv]
  | indexed a k v =>
      have hk := (h (.type k) (by simp)).type
      have hv := (h (.type v) (by simp)).type
      simp [transform, doc, hk, hv]

theorem Node.uncomments {n : Node} (hcustom : ∀ m ∈ n.preorder, m.isCustom = false)
    (hpadded : ∀ m ∈ n.preorder, m.isPadded = false) : n.Uncomments reg := by
  induction n using Node.inductionOn with
  | step n ih =>
      obtain ⟨hncustom, hbelow⟩ := forall_mem_preorder.mp hcustom
      obtain ⟨hnpadded, hbelow'⟩ := forall_mem_preorder.mp hpadded
      have h (c) (hc : c ∈ n.children) : c.Uncomments reg := ih c hc (hbelow c hc) (hbelow' c hc)
      intro hcomment
      cases n with
      | stmt s => exact Stmt.doc_strip hncustom hcomment h
      | expr e => exact Expr.doc_strip hncustom hnpadded h
      | type t => exact Ty.doc_strip h
      | functionBody b => exact FunctionBody.doc_strip h
      | tableField f => exact TableField.doc_strip h
      | suffix s => exact Suffix.doc_strip h
      | typeField f => exact TypeField.doc_strip h
      | chunk c => exact h (.block c.block) (by simp) rfl
      | block b => exact Stmt.blockDoc_strip fun s hs => h (.stmt s) (List.mem_map_of_mem hs)
      | parameter p => cases p <;> rfl
      | args as => simp [stripped, Node.transform, Expr.map_doc_strip h]
      | generics gs =>
          have hgs : (gs.map fun g => (Id.run (g.transform .strip)).doc reg) =
              gs.map fun g => (g.doc reg).uncommented :=
            map_uncomments h fun _ => rfl
          simp [stripped, Node.transform, hgs]
      | genericParam g =>
          obtain ⟨n, b, d⟩ := g
          obtain ⟨hb, hd⟩ := List.forall_mem_append.mp h
          simp [stripped, Node.transform, GenericParam.transform, GenericParam.doc,
            Ty.introducedDoc_strip hb, Ty.introducedDoc_strip hd]
      | call c =>
          obtain ⟨head, ss⟩ := c
          obtain ⟨hhead, hss⟩ := List.forall_mem_cons.mp h
          have hhead : (Id.run (head.transform .strip)).doc reg = (head.doc reg).uncommented :=
            hhead rfl
          have hss : (ss.map fun s => (Id.run (s.transform .strip)).doc reg) =
              ss.map fun s => (s.doc reg).uncommented :=
            map_uncomments hss fun _ => rfl
          simp [stripped, Node.transform, Call.transform, Call.doc, hhead, hss]
      | elseIf b =>
          obtain ⟨c, b⟩ := b
          have hc := (h (.expr c) (by simp)).expr
          have hb := (h (.block b) (by simp)).block
          simp [stripped, Node.transform, ElseIf.transform, ElseIf.doc, hc, hb]
      | elseIfExpr b =>
          obtain ⟨c, v⟩ := b
          have hc := (h (.expr c) (by simp)).expr
          have hv := (h (.expr v) (by simp)).expr
          simp [stripped, Node.transform, ElseIfExpr.transform, ElseIfExpr.doc, hc, hv]
      | segment s =>
          cases s with
          | text t => rfl
          | expr e =>
              have he := (h (.expr e) (by simp)).expr
              simp [stripped, Node.transform, Segment.transform, Segment.doc, he]
      | callHead head =>
          cases head with
          | name n => rfl
          | expr e =>
              have he := (h (.expr e) (by simp)).expr
              simp [stripped, Node.transform, CallHead.transform, CallHead.doc, he]
      | typeArg a =>
          obtain ⟨n, t⟩ := a
          have ht := (h (.type t) (by simp)).type
          cases n <;> simp [stripped, Node.transform, TypeArg.transform, TypeArg.doc, ht]

end

end LuauSyntax
