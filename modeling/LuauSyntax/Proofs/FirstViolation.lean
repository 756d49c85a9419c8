import LuauSyntax.Printer
import LuauSyntax.Proofs.Doc.Violation
import LuauSyntax.Proofs.Node.Plain
import LuauSyntax.Proofs.Node.Shown

namespace LuauSyntax

open Doc

variable {reg : Registry}

namespace Node

def violation? (reg : Registry) : Node → Option Violation
  | .functionBody b =>
      if b.parameters.length ≠ b.types.length then
        some (.parameterTypes b.parameters.length b.types.length)
      else none
  | .stmt (.custom n) | .expr (.custom n) =>
      if (List.lookup n.kind reg).isNone then some (.unregistered n.kind) else none
  | _ => none

def faults (reg : Registry) (ns : List Node) : Option Violation :=
  ns.findSome? fun n => (n.doc reg).violation?

@[simp]
theorem faults_nil : faults reg [] = none := rfl

@[simp]
theorem faults_cons (n : Node) (ns : List Node) :
    faults reg (n :: ns) = (n.doc reg).violation?.or (faults reg ns) :=
  findSome?_cons_or _ n ns

@[simp]
theorem faults_append (ns ms : List Node) :
    faults reg (ns ++ ms) = (faults reg ns).or (faults reg ms) :=
  List.findSome?_append

@[simp]
theorem faults_map {α : Type} (f : α → Node) (l : List α) :
    faults reg (l.map f) = l.findSome? fun a => ((f a).doc reg).violation? :=
  List.findSome?_map

end Node

open Node (faults)

open scoped Node.Unfolding

attribute [local simp] findSome?_cons_or List.findSome?_map Function.comp_def Node.violation?

theorem Literal.violation?_doc (v : Literal) : v.doc.violation? = none := by
  cases v <;> rfl

theorem violation?_parameter (p : Parameter) : p.doc.violation? = none := by
  cases p <;> rfl

theorem violation?_isBasic {t : Ty} (h : t.isBasic = true) : (t.doc reg).violation? = none := by
  cases t <;> first | rfl | simp [Ty.isBasic] at h

theorem violation?_expr (e : Expr) (hreg : (Node.expr e).isCustom = true → reg.VisitsAll) :
    (e.doc reg).violation? = ((Node.expr e).violation? reg).or (faults reg e.children) := by
  cases e with
  | literal v => exact Literal.violation?_doc v
  | custom n =>
      obtain ⟨k, es⟩ := n
      simp [Expr.doc, Registry.violation?_customDoc (hreg rfl)]
  | table t =>
      obtain ⟨fs, p⟩ := t
      simp [Expr.doc]
  | _ => simp [Expr.doc]

theorem violation?_namesDoc (gs : Option Generics) : (Generics.namesDoc gs).violation? = none := by
  match gs with
  | none | some [] => rfl
  | some (g :: gs) =>
      have hname (n : GenericName) : n.doc.violation? = none := by cases n <;> rfl
      simp [Generics.namesDoc, hname]

theorem violation?_declDoc (gs : Option Generics) :
    (GenericParam.declDoc reg gs).violation? = faults reg (Node.ofGenerics gs) := by
  match gs with
  | none => rfl
  | some [] => simp [GenericParam.declDoc, Node.ofGenerics]
  | some (g :: gs) => simp [GenericParam.declDoc_cons, Node.ofGenerics]

theorem violation?_restDoc (t : Option Ty) :
    (Ty.restDoc reg t).findSome? violation? = faults reg (Node.ofType? t) := by
  cases t with
  | none => rfl
  | some t => simp [Ty.restDoc, Node.ofType?]

theorem violation?_annotationDoc (t : Option Ty) :
    (Ty.annotationDoc reg t).violation? = faults reg (Node.ofType? t) := by
  cases t <;> simp [Ty.annotationDoc, Node.ofType?]

theorem violation?_introducedDoc (intro : String) (t : Option Ty) :
    (Ty.introducedDoc reg intro t).violation? = faults reg (Node.ofType? t) := by
  cases t <;> simp [Ty.introducedDoc, Node.ofType?]

theorem violation?_type (t : Ty) :
    (t.doc reg).violation? = faults reg (Node.type t).parts := by
  cases t with
  | table fs =>
      cases fs with
      | nil => rfl
      | cons f fs => simp [Ty.doc]
  | callback gs as t => simp [Ty.doc, violation?_namesDoc]
  | tuple ts r => simp [Ty.doc, violation?_restDoc]
  | _ => simp [Ty.doc]

theorem violation?_parameters (ps : List Parameter) (ts : Annotations)
    (h : ps.length = ts.length) :
    (List.zipWith (· ++ ·) (ps.map Parameter.doc) (Ty.annotationDocs reg ts)).findSome? violation? =
      faults reg (Node.ofAnnotations ts) := by
  induction ps generalizing ts with
  | nil =>
      have hts : ts = [] := List.length_eq_zero_iff.mp h.symm
      rw [hts]
      rfl
  | cons p ps ih =>
      obtain ⟨t, ts, rfl⟩ := List.exists_cons_of_length_eq_add_one h.symm
      have hrest := ih ts (by simpa using h)
      cases t with
      | none =>
          simpa [Ty.annotationDocs, Ty.annotationDoc, Node.ofAnnotations, violation?_parameter]
            using hrest
      | some t =>
          simpa [Ty.annotationDocs, Ty.annotationDoc, Node.ofAnnotations, violation?_parameter]
            using congrArg _ hrest

theorem violation?_functionBody (b : FunctionBody) :
    (b.doc reg).violation? = ((Node.functionBody b).violation? reg).or
      (faults reg (Node.functionBody b).parts) := by
  obtain ⟨gs, ps, ts, r, body⟩ := b
  by_cases h : ps.length = ts.length
  · have hps : (ps.findSome? fun p => p.doc.violation?) = none := by simp [violation?_parameter]
    simp [FunctionBody.doc, h, hps, violation?_namesDoc, violation?_parameters ps ts h,
      violation?_annotationDoc]
  · simp [FunctionBody.doc, h, violation?]

theorem violation?_stepDoc (e : Option Expr) :
    (Expr.stepDoc reg e).violation? = faults reg (Node.ofExprs e.toList) := by
  cases e with
  | none => rfl
  | some e =>
      cases h : e.isUnitStep with
      | true =>
          have he : (e.doc reg).violation? = none := by
            cases e with
            | literal v => exact Literal.violation?_doc v
            | _ => simp [Expr.isUnitStep, Expr.asNumber?] at h
          simp [Expr.stepDoc, h, he]
      | false => simp [Expr.stepDoc, h]

theorem violation?_elseDoc (b : Option Block) :
    (Stmt.elseDoc reg b).violation? = faults reg (b.toList.map Node.block) := by
  cases b <;> simp [Stmt.elseDoc]

theorem violation?_repeatUntil (b : Block) (c : Expr) :
    ((Stmt.repeatUntil b c).doc reg).violation? = faults reg [.block b, .expr c] := by
  unfold Stmt.doc
  split <;> simp [Expr.doc]

theorem violation?_functionName (n : FunctionName) : n.doc.violation? = none := by
  obtain ⟨path, method⟩ := n
  cases method <;> simp [FunctionName.doc]

theorem violation?_annotated (ns : List String) (ts : Annotations) :
    (annotated ns (Ty.localDocs reg ts)).findSome? violation? =
      faults reg (Node.ofAnnotations (ts.take ns.length)) := by
  induction ns generalizing ts with
  | nil => simp [annotated, Node.ofAnnotations]
  | cons n ns ih =>
      cases ts with
      | nil => simpa [annotated, Ty.localDocs, Node.ofAnnotations] using ih []
      | cons t ts =>
          cases t with
          | none => simpa [annotated, Ty.localDocs, Node.ofAnnotations] using ih ts
          | some t =>
              cases hb : t.isBasic with
              | true =>
                  simpa [annotated, Ty.localDocs, Node.ofAnnotations, hb, violation?_isBasic hb]
                    using ih ts
              | false =>
                  simpa [annotated, Ty.localDocs, Node.ofAnnotations, hb] using congrArg _ (ih ts)

theorem ofAnnotations_of_not_given {ts : Annotations} (h : ts.given = false) (k : Nat) :
    Node.ofAnnotations (ts.take k) = [] := by
  have hnone : ∀ t ∈ ts.take k, t = none := fun t ht => by
    simpa using List.any_eq_false.mp h t (List.mem_of_mem_take ht)
  simp only [Node.ofAnnotations, List.map_eq_nil_iff, List.reduceOption_eq_nil_iff]
  exact ⟨_, List.eq_replicate_of_mem hnone⟩

theorem violation?_localDecl (ns : List String) (ts : Annotations) (vs : List Expr) :
    ((Stmt.localDecl ns ts vs).doc reg).violation? =
      faults reg (Node.stmt (.localDecl ns ts vs)).parts := by
  unfold Stmt.doc
  split
  · rename_i n b hts
    simp [ofAnnotations_of_not_given hts, Expr.doc]
  · rename_i ns vs _ _ _ _
    cases vs <;> simp [violation?_annotated]

theorem violation?_stmt (s : Stmt) (hreg : (Node.stmt s).isCustom = true → reg.VisitsAll) :
    (s.doc reg).violation? = ((Node.stmt s).violation? reg).or
      (faults reg (Node.stmt s).parts) := by
  cases s with
  | localDecl ns ts vs => exact violation?_localDecl ns ts vs
  | custom n =>
      obtain ⟨k, es⟩ := n
      simp [Stmt.doc, Registry.violation?_customDoc (hreg rfl)]
  | ifThen c t bs e => simp [Stmt.doc, violation?_elseDoc]
  | repeatUntil b c => exact violation?_repeatUntil b c
  | returns vs => cases vs <;> simp [Stmt.doc]
  | call c =>
      obtain ⟨h, ss⟩ := c
      cases h <;> simp [Stmt.doc, Call.doc, CallHead.doc]
  | _ => simp [Stmt.doc, violation?_declDoc, violation?_stepDoc, violation?_functionName]

theorem Node.violation?_doc (n : Node) (hreg : n.isCustom = true → reg.VisitsAll) :
    (n.doc reg).violation? = (n.violation? reg).or (faults reg n.parts) := by
  cases n with
  | stmt s => exact violation?_stmt s hreg
  | expr e => exact violation?_expr e hreg
  | type t => exact violation?_type t
  | functionBody b => exact violation?_functionBody b
  | chunk c => simp
  | block b => simp [Stmt.blockDoc_eq_flatMap]
  | call c =>
      obtain ⟨h, ss⟩ := c
      simp [Call.doc]
  | args as => simp
  | parameter p => exact violation?_parameter p
  | generics gs => simp
  | genericParam g =>
      obtain ⟨n, b, d⟩ := g
      have hname : n.doc.violation? = none := by cases n <;> rfl
      simp [GenericParam.doc, violation?_introducedDoc, hname]
  | elseIf b =>
      obtain ⟨c, b⟩ := b
      simp [ElseIf.doc]
  | elseIfExpr b =>
      obtain ⟨c, v⟩ := b
      simp [ElseIfExpr.doc]
  | segment s => cases s <;> simp [Segment.doc]
  | tableField f => cases f <;> simp [TableField.doc]
  | callHead h => cases h <;> simp [CallHead.doc]
  | suffix s => cases s <;> simp [Suffix.doc]
  | typeField f => cases f <;> simp [TypeField.doc]
  | typeArg a =>
      obtain ⟨n, t⟩ := a
      cases n <;> simp [TypeArg.doc]

theorem Node.violation?_doc_eq_none_iff {n : Node} (hcustom : n.isCustom = false) :
    (n.doc reg).violation? = none ↔ n.violation? reg = none ∧ faults reg n.parts = none := by
  have hreg (h : n.isCustom = true) : reg.VisitsAll :=
    absurd (hcustom.symm.trans h) Bool.false_ne_true
  rw [n.violation?_doc hreg, Option.or_eq_none_iff]

theorem Node.violation?_signature (n : Node) : n.signature.findSome? (violation? reg) = none := by
  have hnames (gs : Option Generics) : (genericNames gs).findSome? (violation? reg) = none := by
    cases gs with
    | none => rfl
    | some gs => simp [genericNames]
  unfold signature
  split <;> first | exact hnames _ | rfl

theorem Node.violation?_doc_eq_findSome? (hreg : reg.VisitsAll) (n : Node) :
    (n.doc reg).violation? = n.shown.findSome? (violation? reg) := by
  induction n using Node.inductionOn with
  | step n ih =>
      have hparts : faults reg n.parts =
          n.parts.findSome? fun m => m.shown.findSome? (violation? reg) :=
        findSome?_congr fun m hm => ih m (n.parts_subset_children hm)
      rw [violation?_doc n fun _ => hreg, shown_eq n, List.cons_append, findSome?_cons_or,
        List.findSome?_append, violation?_signature, findSome?_flatMap, hparts]
      rfl

theorem Printer.print_eq_error_iff (p : Printer) (d : Doc) (v : Violation) :
    p.print d = .error v ↔ d.violation? = some v := by
  unfold Printer.print
  cases d.violation? <;> simp

theorem Printer.exists_print_eq_ok_iff (p : Printer) (d : Doc) :
    (∃ text, p.print d = .ok text) ↔ d.violation? = none := by
  unfold Printer.print
  cases d.violation? <;> simp

theorem Printer.printChunk_eq_error_iff (p : Printer) (c : Chunk) (v : Violation) :
    p.printChunk c = .error v ↔ ((Node.chunk c).doc p.registry).violation? = some v := by
  rw [← p.print_eq_error_iff]
  unfold Printer.printChunk
  change Except.map _ (p.print ((Node.chunk c).doc p.registry)) = _ ↔ _
  cases p.print ((Node.chunk c).doc p.registry) <;> simp [Except.map]

theorem Printer.exists_printChunk_eq_ok_iff (p : Printer) (c : Chunk) :
    (∃ text, p.printChunk c = .ok text) ↔
      ((Node.chunk c).doc p.registry).violation? = none := by
  rw [← p.exists_print_eq_ok_iff]
  unfold Printer.printChunk
  change (∃ text, Except.map _ (p.print ((Node.chunk c).doc p.registry)) = .ok text) ↔ _
  cases p.print ((Node.chunk c).doc p.registry) <;> simp [Except.map]

theorem Printer.printChunk_first_violation (p : Printer) (hreg : p.registry.VisitsAll)
    (c : Chunk) :
    ((∃ text, p.printChunk c = .ok text) ↔
      ∀ n ∈ (Node.chunk c).shown, n.violation? p.registry = none) ∧
    ∀ v, p.printChunk c = .error v ↔
      ∃ before n after, (Node.chunk c).shown = before ++ n :: after ∧
        n.violation? p.registry = some v ∧ ∀ m ∈ before, m.violation? p.registry = none := by
  have hdoc := Node.violation?_doc_eq_findSome? hreg (.chunk c)
  constructor
  · rw [p.exists_printChunk_eq_ok_iff, hdoc, List.findSome?_eq_none_iff]
  · intro v
    rw [p.printChunk_eq_error_iff, hdoc, List.findSome?_eq_some_iff]

theorem Printer.printChunk_first_violation_pair :
    Printer.printChunk { registry := [("pair", .pair), ("lines", .lines)] }
      ⟨[.custom ⟨"lines", [.varArgs,
        .custom ⟨"pair", [.function ⟨none, [.ellipsis], [], none, []⟩]⟩,
        .custom ⟨"other", []⟩]⟩]⟩ = .error (.parameterTypes 1 0) := by
  have hreg : Registry.VisitsAll [("pair", .pair), ("lines", .lines)] :=
    Registry.visitsAll_of_forall
      (by simpa using ⟨CustomRenderer.pair_visitsAll, CustomRenderer.lines_visitsAll⟩)
  refine ((Printer.printChunk_first_violation _ hreg _).2 _).mpr
    ⟨[_, _, _, _, _, _], .functionBody ⟨none, [.ellipsis], [], none, []⟩, _, rfl, rfl, ?_⟩
  simp

end LuauSyntax
