import LuauSyntax.Proofs.FirstViolation

namespace LuauSyntax

def Piece.isSignal : Piece → Bool
  | .custom _ | .fail _ => true
  | _ => false

namespace Doc

def signals (d : Doc) : Doc :=
  d.filter Piece.isSignal

theorem violation?_signals (d : Doc) : d.signals.violation? = d.violation? := by
  induction d with
  | nil => rfl
  | cons p d ih =>
      unfold signals at ih ⊢
      cases p <;> simp [List.filter_cons, Piece.isSignal, violation?, ih]

theorem customKinds_signals (d : Doc) : d.signals.customKinds = d.customKinds := by
  induction d with
  | nil => rfl
  | cons p d ih =>
      unfold signals at ih ⊢
      cases p <;> simp [List.filter_cons, Piece.isSignal, customKinds, ih]

@[simp]
theorem signals_nil : signals [] = [] := rfl

@[simp]
theorem signals_append (d e : Doc) : (d ++ e).signals = d.signals ++ e.signals :=
  List.filter_append d e

@[simp]
theorem signals_text (t : String) : (text t).signals = [] := rfl

@[simp]
theorem signals_margin : margin.signals = [] := rfl

@[simp]
theorem signals_indented (t : String) : (indented t).signals = [] := rfl

@[simp]
theorem signals_line (t : String) : (line t).signals = [] := rfl

@[simp]
theorem signals_newline : newline.signals = [] := rfl

@[simp]
theorem signals_boolean (b : Bool) : (boolean b).signals = [] := rfl

@[simp]
theorem signals_access (a : Option Access) : (access a).signals = [] := by
  cases a <;> rfl

@[simp]
theorem signals_nested (d : Doc) : (nested d).signals = d.signals := by
  change signals (d ++ [.edit .pop]) = _
  exact (signals_append d _).trans (List.append_nil _)

@[simp]
theorem signals_wrapIf (wrap : Bool) (d : Doc) : (wrapIf wrap d).signals = d.signals := by
  cases wrap <;> simp [wrapIf]

@[simp]
theorem signals_flatMap {α : Type} (f : α → Doc) (l : List α) :
    signals (l.flatMap f) = l.flatMap fun a => (f a).signals :=
  List.filter_flatMap

@[simp]
theorem signals_flatten (ds : List Doc) : signals ds.flatten = ds.flatMap signals := by
  rw [← List.flatMap_id, signals_flatMap]
  rfl

@[simp]
theorem signals_separated (s : String) (ds : List Doc) :
    (separated s ds).signals = ds.flatMap signals := by
  match ds with
  | [] => rfl
  | [d] => simp [separated, List.intercalate]
  | d :: e :: ds =>
      rw [separated_cons_cons, signals_append, signals_append, signals_text,
        signals_separated s (e :: ds), List.append_nil, ← List.flatMap_cons]

@[simp]
theorem signals_comment (t : String) : (comment t).signals = [] := by
  simp [comment]

@[simp]
theorem signals_table (positional padded : Bool) (ds : List Doc) :
    (table positional padded ds).signals = ds.flatMap signals := by
  cases ds with
  | nil => rfl
  | cons d ds => cases positional <;> simp [table]

end Doc

open Doc

def Node.signalsBelow (reg : Registry) (ns : List Node) : Doc :=
  ns.flatMap fun n => (n.doc reg).signals

variable {reg : Registry}

open scoped Node.Unfolding

attribute [local simp] Node.signalsBelow List.flatMap_map

open Node (signalsBelow)

@[simp]
theorem Literal.signals_doc (v : Literal) : v.doc.signals = [] := by
  cases v <;> rfl

@[simp]
theorem Parameter.signals_doc (p : Parameter) : p.doc.signals = [] := by
  cases p <;> rfl

@[simp]
theorem GenericName.signals_doc (n : GenericName) : n.doc.signals = [] := by
  cases n <;> rfl

@[simp]
theorem FunctionName.signals_doc (n : FunctionName) : n.doc.signals = [] := by
  obtain ⟨path, method⟩ := n
  cases method <;> rfl

theorem Generics.signals_namesDoc (gs : Option Generics) : (namesDoc gs).signals = [] := by
  match gs with
  | none | some [] => rfl
  | some (g :: gs) => simp [namesDoc]

theorem Expr.signals_doc (e : Expr) (h : (Node.expr e).isCustom = false) :
    (e.doc reg).signals = signalsBelow reg e.children := by
  cases e with
  | custom n => simp at h
  | table t =>
      obtain ⟨fs, p⟩ := t
      simp [doc]
  | _ => simp [doc]

theorem GenericParam.signals_declDoc (gs : Option Generics) :
    (declDoc reg gs).signals = signalsBelow reg (Node.ofGenerics gs) := by
  match gs with
  | none => rfl
  | some [] => simp [declDoc, Node.ofGenerics]
  | some (g :: gs) => simp [declDoc_cons, Node.ofGenerics]

theorem Ty.signals_introducedDoc (intro : String) (t : Option Ty) :
    (introducedDoc reg intro t).signals = signalsBelow reg (Node.ofType? t) := by
  cases t <;> simp [introducedDoc, Node.ofType?]

theorem Ty.signals_doc (t : Ty) :
    (t.doc reg).signals = signalsBelow reg (Node.type t).parts := by
  cases t with
  | table fs => cases fs <;> simp [doc]
  | tuple ts r => cases r <;> simp [doc, restDoc, Node.ofType?]
  | callback gs as t => simp [doc, Generics.signals_namesDoc]
  | _ => simp [doc]

theorem Ty.signals_of_isBasic {t : Ty} (h : t.isBasic = true) : (t.doc reg).signals = [] := by
  cases t <;> first | rfl | simp [isBasic] at h

theorem signals_parameters (ps : List Parameter) (ts : Annotations) (h : ps.length = ts.length) :
    (List.zipWith (· ++ ·) (ps.map Parameter.doc) (Ty.annotationDocs reg ts)).flatMap signals =
      signalsBelow reg (Node.ofAnnotations ts) := by
  induction ps generalizing ts with
  | nil =>
      have hts : ts = [] := List.length_eq_zero_iff.mp h.symm
      rw [hts]
      rfl
  | cons p ps ih =>
      obtain ⟨t, ts, rfl⟩ := List.exists_cons_of_length_eq_add_one h.symm
      have hrest := ih ts (by simpa using h)
      cases t with
      | none => simpa [Ty.annotationDocs, Ty.annotationDoc, Node.ofAnnotations] using hrest
      | some t => simpa [Ty.annotationDocs, Ty.annotationDoc, Node.ofAnnotations] using hrest

theorem FunctionBody.signals_doc (b : FunctionBody)
    (h : (Node.functionBody b).violation? reg = none) :
    (b.doc reg).signals = signalsBelow reg (Node.functionBody b).parts := by
  obtain ⟨gs, ps, ts, r, body⟩ := b
  have hlength : ps.length = ts.length := by simpa [Node.violation?] using h
  have hparameters := @signals_parameters reg ps ts hlength
  cases r <;> simp_all [doc, Generics.signals_namesDoc, Ty.annotationDoc, Node.ofType?]

theorem Expr.signals_stepDoc (e : Option Expr) :
    (stepDoc reg e).signals = signalsBelow reg (Node.ofExprs e.toList) := by
  cases e with
  | none => rfl
  | some e =>
      cases h : e.isUnitStep with
      | true =>
          -- Only a number can be the step that is left out.
          have he : (e.doc reg).signals = [] := by
            cases e with
            | literal v => exact v.signals_doc
            | _ => simp [isUnitStep, asNumber?] at h
          simp [stepDoc, h, he]
      | false => simp [stepDoc, h]

theorem signals_annotated (ns : List String) (ts : Annotations) :
    (annotated ns (Ty.localDocs reg ts)).flatMap signals =
      signalsBelow reg (Node.ofAnnotations (ts.take ns.length)) := by
  induction ns generalizing ts with
  | nil => simp [annotated, Node.ofAnnotations]
  | cons n ns ih =>
      cases ts with
      | nil => simpa [annotated, Ty.localDocs, Node.ofAnnotations] using ih []
      | cons t ts =>
          have hts := ih ts
          cases t with
          | none => simpa [annotated, Ty.localDocs, Node.ofAnnotations] using hts
          | some t =>
              cases hb : t.isBasic with
              | true =>
                  simpa [annotated, Ty.localDocs, Node.ofAnnotations, hb,
                    Ty.signals_of_isBasic hb] using hts
              | false => simpa [annotated, Ty.localDocs, Node.ofAnnotations, hb] using hts

theorem Stmt.signals_localDecl (ns : List String) (ts : Annotations) (vs : List Expr) :
    ((localDecl ns ts vs).doc reg).signals =
      signalsBelow reg (Node.stmt (.localDecl ns ts vs)).parts := by
  unfold doc
  split
  · rename_i n b hts
    simp [ofAnnotations_of_not_given hts, Expr.doc]
  · rename_i ns vs _ _ _ _
    cases vs <;> simp [signals_annotated]

theorem Stmt.signals_repeatUntil (b : Block) (c : Expr) :
    ((repeatUntil b c).doc reg).signals = signalsBelow reg [.block b, .expr c] := by
  unfold doc
  split <;> simp [Expr.doc]

theorem Stmt.signals_doc (s : Stmt) (h : (Node.stmt s).isCustom = false) :
    (s.doc reg).signals = signalsBelow reg (Node.stmt s).parts := by
  cases s with
  | custom n => simp at h
  | localDecl ns ts vs => exact signals_localDecl ns ts vs
  | repeatUntil b c => exact signals_repeatUntil b c
  | ifThen c t bs e => cases e <;> simp [doc, elseDoc]
  | returns vs => cases vs <;> simp [doc]
  | call c =>
      obtain ⟨head, ss⟩ := c
      cases head <;> simp [doc, Call.doc, CallHead.doc]
  | numericFor n a z s b => simp [doc, Expr.signals_stepDoc]
  | typeDecl x n gs t => simp [doc, GenericParam.signals_declDoc]
  | _ => simp [doc]

theorem Node.signals_doc (n : Node) (hcustom : n.isCustom = false)
    (hfine : n.violation? reg = none) : (n.doc reg).signals = signalsBelow reg n.parts := by
  cases n with
  | stmt s => exact s.signals_doc hcustom
  | expr e => exact e.signals_doc hcustom
  | type t => exact t.signals_doc
  | functionBody b => exact b.signals_doc hfine
  | chunk c => simp
  | block b => simp [Stmt.blockDoc_eq_flatMap]
  | call c =>
      obtain ⟨head, ss⟩ := c
      simp [Call.doc]
  | args as => simp
  | parameter p => simp
  | generics gs => simp
  | genericParam g =>
      obtain ⟨n, b, d⟩ := g
      simp [GenericParam.doc, Ty.signals_introducedDoc]
  | elseIf b =>
      obtain ⟨c, b⟩ := b
      simp [ElseIf.doc]
  | elseIfExpr b =>
      obtain ⟨c, v⟩ := b
      simp [ElseIfExpr.doc]
  | segment s => cases s <;> simp [Segment.doc]
  | tableField f => cases f <;> simp [TableField.doc]
  | callHead head => cases head <;> simp [CallHead.doc]
  | suffix s => cases s <;> simp [Suffix.doc]
  | typeField f => cases f <;> simp [TypeField.doc]
  | typeArg a =>
      obtain ⟨n, t⟩ := a
      cases n <;> simp [TypeArg.doc]

end LuauSyntax
