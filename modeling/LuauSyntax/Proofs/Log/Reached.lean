import LuauSyntax.Proofs.Doc.Signals

namespace LuauSyntax

open Doc

namespace CustomRenderer

inductive Stock where
  | pair
  | switch
  | lines
  | info
deriving DecidableEq, Repr

namespace Stock

def renderer : Stock → CustomRenderer
  | .pair => CustomRenderer.pair
  | .switch => CustomRenderer.switch
  | .lines => CustomRenderer.lines
  | .info => CustomRenderer.info

def visited {α : Type} : Stock → List α → List α
  | .pair, as | .lines, as => as
  | .switch, as => as.take 1
  | .info, _ => []

theorem visited_map {α β : Type} (r : Stock) (f : α → β) (as : List α) :
    r.visited (as.map f) = (r.visited as).map f := by
  cases r <;> simp [visited]

theorem visited_subset {α : Type} (r : Stock) (as : List α) : r.visited as ⊆ as := by
  cases r with
  | pair | lines => exact List.Subset.refl as
  | switch => exact List.take_subset 1 as
  | info => exact List.nil_subset as

theorem signals_renderer (r : Stock) (kind : String) (ds : List Doc) :
    signals (r.renderer kind ds) = (r.visited ds).flatMap signals := by
  cases r with
  | pair => simp [renderer, visited, CustomRenderer.pair]
  | switch => cases ds <;> simp [renderer, visited, CustomRenderer.switch]
  | lines => simp [renderer, visited, CustomRenderer.lines]
  | info => rfl

end Stock

end CustomRenderer

open CustomRenderer (Stock)

def Registry.ofStock (entries : List (String × Stock)) : Registry :=
  entries.map fun e => (e.1, e.2.renderer)

variable {entries : List (String × Stock)}

theorem Registry.lookup_ofStock (kind : String) :
    List.lookup kind (ofStock entries) = (List.lookup kind entries).map Stock.renderer := by
  induction entries with
  | nil => rfl
  | cons e entries ih =>
      obtain ⟨k, r⟩ := e
      simp only [ofStock, List.map_cons, List.lookup_cons] at ih ⊢
      split
      · rfl
      · exact ih

namespace Node

def customKind? : Node → Option String
  | .stmt (.custom n) | .expr (.custom n) => some n.kind
  | _ => none

def signal? (reg : Registry) (n : Node) : Option Piece :=
  match n.violation? reg with
  | some v => some (.fail v)
  | none => n.customKind?.map .custom

def reachedAt (entries : List (String × Stock)) (n : Node) (below : List (List Node)) :
    List Node :=
  match n.violation? (.ofStock entries), n.customKind?.bind (List.lookup · entries) with
  | some _, _ => [n]
  | none, some r => n :: (r.visited below).flatten
  | none, none => n.shownAt below

def reached (entries : List (String × Stock)) : Node → List Node :=
  fold (reachedAt entries)

theorem reached_eq (n : Node) : n.reached entries =
    reachedAt entries n (n.children.map (reached entries)) :=
  fold_eq _ n

theorem customKind?_of_isCustom {n : Node} (h : n.isCustom = false) : n.customKind? = none := by
  unfold customKind?
  split <;> first | rfl | simp [isCustom] at h

theorem not_isCustom_of_fine {n : Node} (hv : n.violation? (.ofStock entries) = none)
    (hr : n.customKind?.bind (List.lookup · entries) = none) : n.isCustom = false := by
  have hkind {kind : String} (h : List.lookup kind entries = none) :
      List.lookup kind (Registry.ofStock entries) = none := by
    rw [Registry.lookup_ofStock, h]
    rfl
  unfold isCustom
  split
  · simp [violation?, hkind hr] at hv
  · simp [violation?, hkind hr] at hv
  · rfl

theorem signal?_signature (reg : Registry) (n : Node) :
    n.signature.filterMap (signal? reg) = [] := by
  have hnames (gs : Option Generics) : (genericNames gs).filterMap (signal? reg) = [] := by
    cases gs <;> simp [genericNames, signal?, violation?, customKind?]
  unfold signature
  split <;> first | exact hnames _ | rfl

theorem signals_doc_of_faulty {reg : Registry} {n : Node} {v : Violation}
    (h : n.violation? reg = some v) : (n.doc reg).signals = [.fail v] := by
  have hcustom {c : Custom}
      (h : (if (List.lookup c.kind reg).isNone then some (.unregistered c.kind) else none) = some v)
      (ds : List Doc) : reg.customDoc c.kind ds = [.fail v] := by
    split at h
    · rename_i hnone
      rw [Registry.customDoc, Option.isNone_iff_eq_none.mp hnone, ← Option.some.inj h]
    · cases h
  unfold violation? at h
  split at h
  · rename_i b
    obtain ⟨gs, ps, ts, r, body⟩ := b
    split at h
    · rename_i hlength
      rw [Node.doc, FunctionBody.doc, if_pos hlength, ← Option.some.inj h]
      rfl
    · cases h
  · rename_i c
    obtain ⟨kind, es⟩ := c
    rw [Node.doc, Stmt.doc, hcustom h]
    rfl
  · rename_i c
    obtain ⟨kind, es⟩ := c
    rw [Node.doc, Expr.doc, hcustom h]
    rfl
  · cases h

theorem signals_doc_of_registered {n : Node} {kind : String} {r : Stock}
    (hkind : n.customKind? = some kind) (hr : List.lookup kind entries = some r) :
    (n.doc (.ofStock entries)).signals = .custom kind ::
      (r.visited n.children).flatMap fun c => (c.doc (.ofStock entries)).signals := by
  have hdoc (ds : List Doc) : (Registry.customDoc (.ofStock entries) kind ds).signals =
      .custom kind :: (r.visited ds).flatMap signals := by
    rw [← r.signals_renderer kind ds, Registry.customDoc, Registry.lookup_ofStock, hr]
    rfl
  unfold customKind? at hkind
  split at hkind
  · rename_i c
    obtain ⟨k, es⟩ := c
    obtain rfl := Option.some.inj hkind
    simp [Node.doc, Stmt.doc, hdoc, children, Stmt.children, ofExprs, Expr.docs_eq_map,
      Stock.visited_map, List.flatMap_map]
  · rename_i c
    obtain ⟨k, es⟩ := c
    obtain rfl := Option.some.inj hkind
    simp [Node.doc, Expr.doc, hdoc, children, Expr.children, ofExprs, Expr.docs_eq_map,
      Stock.visited_map, List.flatMap_map]
  · cases hkind

theorem signals_doc_eq_reached (n : Node) : (n.doc (.ofStock entries)).signals =
    (n.reached entries).filterMap (signal? (.ofStock entries)) := by
  induction n using Node.inductionOn with
  | step n ih =>
      have hbelow {ns : List Node} (hns : ns ⊆ n.children) :
          (ns.flatMap fun c => (c.doc (.ofStock entries)).signals) =
            (ns.flatMap (reached entries)).filterMap (signal? (.ofStock entries)) := by
        rw [List.filterMap_flatMap]
        exact List.flatMap_congr fun c hc => ih c (hns hc)
      have hsignal : signal? (.ofStock entries) n =
          match n.violation? (.ofStock entries) with
          | some v => some (.fail v)
          | none => n.customKind?.map .custom := rfl
      rw [reached_eq, reachedAt]
      cases hv : n.violation? (.ofStock entries) with
      | some v => simp [signals_doc_of_faulty hv, hsignal, hv]
      | none =>
          cases hr : n.customKind?.bind (List.lookup · entries) with
          | some r =>
              obtain ⟨kind, hkind, hr⟩ := Option.bind_eq_some_iff.mp hr
              rw [signals_doc_of_registered hkind hr, hbelow (r.visited_subset _), List.flatMap_def,
                ← Stock.visited_map]
              simp [hsignal, hv, hkind]
          | none =>
              have hcustom := not_isCustom_of_fine hv hr
              have hself : signal? (.ofStock entries) n = none := by
                rw [hsignal, hv, customKind?_of_isCustom hcustom]
                rfl
              rw [signals_doc n hcustom hv, signalsBelow, hbelow n.parts_subset_children,
                shownAt_map_children, List.cons_append, List.filterMap_cons_none hself,
                List.filterMap_append, signal?_signature, List.nil_append]

end Node

end LuauSyntax
