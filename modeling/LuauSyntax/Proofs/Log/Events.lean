import LuauSyntax.Printer
import LuauSyntax.Proofs.Log.Reached
import Mathlib.Data.List.TakeWhile

namespace LuauSyntax

open CustomRenderer (Stock)

namespace Steps

variable {α β : Type} {x : Steps α} {w w' : Work}

theorem run_bind_of_ok {a : α} (h : x.run w = (.ok a, w')) (f : α → Steps β) :
    (x >>= f).run w = (f a).run w' := by
  change (match x.run w with | (r, w') => ExceptT.bindCont f r w') = _
  rw [h]
  rfl

theorem run_bind_of_error {v : Violation} (h : x.run w = (.error v, w')) (f : α → Steps β) :
    (x >>= f).run w = (.error v, w') := by
  change (match x.run w with | (r, w') => ExceptT.bindCont f r w') = _
  rw [h]
  rfl

theorem run_log (e : Event) (w : Work) :
    (log e).run w = (.ok (), { w with events := w.events ++ [e] }) := rfl

end Steps

theorem Piece.run_perform_fail (v : Violation) (w : Work) : (Piece.fail v).perform.run w =
    (.error v, { w with events := w.events ++ [.aborted v.message] }) := rfl

namespace Doc

theorem run_perform_of_ok {d : Doc} (h : d.violation? = none) (w : Work) :
    d.perform.run w = (.ok (), ⟨d.draw w.canvas, w.events ++ d.customKinds.map .custom⟩) := by
  induction d generalizing w with
  | nil => simp [customKinds, draw]; rfl
  | cons p d ih =>
      cases p with
      | edit e => exact ih h { w with canvas := w.canvas.edit e }
      | measured t => exact ih h { w with canvas := w.canvas.append (t w.canvas) }
      | fail v => simp [violation?] at h
      | custom k =>
          have hstep := Steps.run_bind_of_ok (Steps.run_log (.custom k) w) fun _ => perform d
          refine hstep.trans ((ih h _).trans ?_)
          simp [customKinds, draw, Piece.draw]

theorem exists_run_perform_of_error {d : Doc} {v : Violation} (h : d.violation? = some v)
    (w : Work) : ∃ canvas, d.perform.run w =
      (.error v, ⟨canvas, w.events ++ d.customKinds.map .custom ++ [.aborted v.message]⟩) := by
  induction d generalizing w with
  | nil => simp [violation?] at h
  | cons p d ih =>
      cases p with
      | edit e => exact ih h { w with canvas := w.canvas.edit e }
      | measured t => exact ih h { w with canvas := w.canvas.append (t w.canvas) }
      | fail u =>
          obtain rfl : u = v := by simpa [violation?] using h
          refine ⟨w.canvas, (Steps.run_bind_of_error (Piece.run_perform_fail u w) _).trans ?_⟩
          simp [customKinds]
      | custom k =>
          obtain ⟨canvas, hrest⟩ := ih h { w with events := w.events ++ [.custom k] }
          have hstep := Steps.run_bind_of_ok (Steps.run_log (.custom k) w) fun _ => perform d
          refine ⟨canvas, hstep.trans (hrest.trans ?_)⟩
          simp [customKinds]

end Doc

namespace Node

def dispatched (entries : List (String × Stock)) (n : Node) : List String :=
  ((n.reached entries).takeWhile fun m => (m.violation? (.ofStock entries)).isNone).filterMap
    customKind?

theorem violation?_filterMap_signal? (reg : Registry) (ns : List Node) :
    Doc.violation? (ns.filterMap (signal? reg)) = ns.findSome? (violation? reg) := by
  induction ns with
  | nil => rfl
  | cons n ns ih =>
      cases hv : n.violation? reg with
      | some v => simp [signal?, hv, Doc.violation?]
      | none => cases hk : n.customKind? <;> simp [signal?, hv, hk, Doc.violation?, ih]

theorem customKinds_filterMap_signal? (reg : Registry) (ns : List Node) :
    Doc.customKinds (ns.filterMap (signal? reg)) =
      (ns.takeWhile fun m => (m.violation? reg).isNone).filterMap customKind? := by
  induction ns with
  | nil => rfl
  | cons n ns ih =>
      cases hv : n.violation? reg with
      | some v => simp [signal?, hv, Doc.customKinds]
      | none => cases hk : n.customKind? <;> simp [signal?, hv, hk, Doc.customKinds, ih]

variable {entries : List (String × Stock)}

theorem violation?_doc_eq_reached (n : Node) : (n.doc (.ofStock entries)).violation? =
    (n.reached entries).findSome? (violation? (.ofStock entries)) := by
  rw [← Doc.violation?_signals, signals_doc_eq_reached, violation?_filterMap_signal?]

theorem customKinds_doc (n : Node) :
    (n.doc (.ofStock entries)).customKinds = n.dispatched entries := by
  rw [← Doc.customKinds_signals, signals_doc_eq_reached, customKinds_filterMap_signal?]
  rfl

theorem isSome_lookup_of_mem_dispatched {n : Node} {kind : String}
    (h : kind ∈ n.dispatched entries) : (List.lookup kind entries).isSome := by
  obtain ⟨m, hm, hkind⟩ := List.mem_filterMap.mp h
  have hfine : m.violation? (.ofStock entries) = none := by
    simpa using List.mem_takeWhile_imp hm
  by_contra hnone
  have hlookup : m.customKind?.bind (List.lookup · entries) = none := by
    rw [hkind]
    exact Option.not_isSome_iff_eq_none.mp hnone
  rw [customKind?_of_isCustom (not_isCustom_of_fine hfine hlookup)] at hkind
  cases hkind

end Node

namespace Printer

theorem printChunk_eq (p : Printer) (c : Chunk) : p.printChunk c =
    match (Stmt.blockDoc p.registry c.block).violation? with
    | some v => .error v
    | none => .ok (p.style.finish
        ((Stmt.blockDoc p.registry c.block).draw (.ofUnit p.style.indent)).output) := by
  rw [printChunk, print]
  cases (Stmt.blockDoc p.registry c.block).violation? <;> rfl

theorem run_perform (p : Printer) (c : Chunk) :
    ((p.perform c).run { canvas := .ofUnit p.style.indent }).1 = p.printChunk c ∧
      p.log c = .started c.block.length ::
        (Stmt.blockDoc p.registry c.block).customKinds.map .custom ++
          [match p.printChunk c with
            | .ok text => .finished text.utf8ByteSize
            | .error v => .aborted v.message] := by
  rw [log, perform, Steps.run_bind_of_ok (Steps.run_log _ _), printChunk_eq]
  cases hv : (Stmt.blockDoc p.registry c.block).violation? with
  | none =>
      rw [Steps.run_bind_of_ok (Doc.run_perform_of_ok hv _)]
      exact ⟨rfl, rfl⟩
  | some v =>
      obtain ⟨canvas, hrun⟩ := Doc.exists_run_perform_of_error hv
        ⟨.ofUnit p.style.indent, [] ++ [.started c.block.length]⟩
      rw [Steps.run_bind_of_error hrun]
      exact ⟨rfl, rfl⟩

theorem log_shape (style : Style) (entries : List (String × Stock)) (c : Chunk) :
    let p : Printer := ⟨style, .ofStock entries⟩
    let kinds := (Node.chunk c).dispatched entries
    let faults := ((Node.chunk c).reached entries).filterMap (Node.violation? p.registry)
    ((p.perform c).run { canvas := .ofUnit style.indent }).1 = p.printChunk c ∧
    (∀ kind ∈ kinds, (List.lookup kind entries).isSome) ∧
    ((∃ text, faults = [] ∧ p.printChunk c = .ok text ∧
        p.log c = .started c.block.length :: kinds.map .custom ++ [.finished text.utf8ByteSize]) ∨
      ∃ v, faults.head? = some v ∧ p.printChunk c = .error v ∧
        p.log c = .started c.block.length :: kinds.map .custom ++ [.aborted v.message]) ∧
    (p.log c).map (fun e => (e.level.name, e.message)) = ("DEBUG", "rendering chunk") ::
      List.replicate kinds.length ("TRACE", "rendering custom node") ++
        [if faults = [] then ("DEBUG", "rendered chunk") else ("ERROR", "render aborted")] := by
  intro p kinds faults
  obtain ⟨hresult, hlog⟩ := p.run_perform c
  have hkinds : (Stmt.blockDoc p.registry c.block).customKinds = kinds :=
    (Node.chunk c).customKinds_doc
  have hfaults : (Stmt.blockDoc p.registry c.block).violation? = faults.head? := by
    rw [List.head?_filterMap]
    exact (Node.chunk c).violation?_doc_eq_reached
  have hlines (last : Event) :
      (Event.started c.block.length :: kinds.map .custom ++ [last]).map
        (fun e => (e.level.name, e.message)) = ("DEBUG", "rendering chunk") ::
          List.replicate kinds.length ("TRACE", "rendering custom node") ++
            [(last.level.name, last.message)] := by
    rw [← List.map_const', List.map_append, List.map_cons, List.map_map]
    rfl
  refine ⟨hresult, fun _ => Node.isSome_lookup_of_mem_dispatched, ?_⟩
  rw [hkinds] at hlog
  cases h : p.printChunk c with
  | ok text =>
      have hnone : faults = [] := by
        rw [← List.head?_eq_none_iff, ← hfaults]
        exact (p.exists_printChunk_eq_ok_iff c).mp ⟨text, h⟩
      rw [h] at hlog
      refine ⟨.inl ⟨text, hnone, rfl, hlog⟩, ?_⟩
      rw [hlog, hlines, if_pos hnone]
      rfl
  | error v =>
      have hfirst : faults.head? = some v := by
        rw [← hfaults]
        exact (p.printChunk_eq_error_iff c v).mp h
      have hsome : faults ≠ [] := List.ne_nil_of_mem (List.mem_of_head? hfirst)
      rw [h] at hlog
      refine ⟨.inr ⟨v, hfirst, rfl, hlog⟩, ?_⟩
      rw [hlog, hlines, if_neg hsome]
      rfl

end Printer

end LuauSyntax
