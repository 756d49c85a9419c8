import LuauSyntax.Printer
import LuauSyntax.Proofs.Frame.Tree

namespace LuauSyntax

variable {reg : Registry}

def Registry.Standard (reg : Registry) : Prop :=
  ∀ e ∈ reg, e.2 ∈ [CustomRenderer.pair, CustomRenderer.switch, CustomRenderer.lines]

theorem Registry.Standard.balanced (h : reg.Standard) : reg.Balanced := by
  intro e he
  have hr := h e he
  simp only [List.mem_cons, List.not_mem_nil, or_false] at hr
  rcases hr with hr | hr | hr <;> rw [hr]
  · exact CustomRenderer.pair_balanced
  · exact CustomRenderer.switch_balanced
  · exact CustomRenderer.lines_balanced

def Piece.run (c : Canvas) : Piece → Except Violation Canvas
  | .fail v => .error v
  | p => .ok (p.draw c)

def Doc.run (d : Doc) (c : Canvas) : Except Violation Canvas :=
  d.foldlM Piece.run c

theorem Doc.run_eq (d : Doc) (c : Canvas) : d.run c =
    match d.violation? with
    | some v => .error v
    | none => .ok (d.draw c) := by
  induction d generalizing c with
  | nil => rfl
  | cons p d ih =>
      cases p with
      | fail v => rfl
      | edit e => exact ih (c.edit e)
      | measured t => exact ih (c.append (t c))
      | custom k => exact ih c

theorem Doc.Balanced.run_eq {d : Doc} (h : d.Balanced) (c : Canvas) :
    d.run c =
      (d.run { unit := c.unit, depth := c.depth }).map fun drawn => c.append drawn.output := by
  rw [Doc.run_eq, Doc.run_eq]
  cases d.violation? with
  | some v => rfl
  | none => simp [Except.map, h.draw_eq, Canvas.append]

structure Printing where
  printer : Printer
  canvas : Canvas

namespace Printing

def visit (w : Printing) (n : Node) : Except Violation Printing := do
  return { w with canvas := ← (n.doc w.printer.registry).run w.canvas }

end Printing

def Node.textAt (reg : Registry) (unit : String) (depth : Nat) (n : Node) :
    Except Violation String :=
  ((n.doc reg).run { unit, depth }).map Canvas.output

theorem Doc.Balanced.print_append {d e : Doc} (hd : d.Balanced) (he : e.Balanced) (p : Printer) :
    p.print (d ++ e) = do return (← p.print d) ++ (← p.print e) := by
  simp only [Printer.print, violation?_append]
  cases d.violation? with
  | some v => rfl
  | none =>
      cases e.violation? with
      | some v => rfl
      | none =>
          change Except.ok _ = Except.ok _
          rw [draw_append, hd.draw_eq, he.draw_eq, he.draw_eq]
          simp [Canvas.append, Canvas.ofUnit]

theorem Printer.print_eq_run (p : Printer) (d : Doc) :
    p.print d = (d.run (.ofUnit p.style.indent)).map Canvas.output := by
  rw [Doc.run_eq, Printer.print]
  cases d.violation? <;> rfl

theorem Printing.visit_eq {p : Printer} (hreg : p.registry.Balanced) (c : Canvas) (n : Node) :
    visit ⟨p, c⟩ n = (n.textAt p.registry c.unit c.depth).map fun t => ⟨p, c.append t⟩ := by
  have hdoc := n.balanced_doc fun _ _ _ => hreg
  rw [visit, hdoc.run_eq c, Node.textAt]
  cases (n.doc p.registry).run { unit := c.unit, depth := c.depth } <;> rfl

theorem Printer.printChunk_of_trailingNewline {p : Printer} (h : p.style.trailingNewline = true)
    (c : Chunk) : p.printChunk c = p.print (Stmt.blockDoc p.registry c.block) := by
  have hfinish : p.style.finish = id := by
    funext text
    simp [Style.finish, h]
  rw [Printer.printChunk, hfinish]
  cases p.print (Stmt.blockDoc p.registry c.block) <;> rfl

theorem Printer.printChunk_eq_visit (p : Printer) (c : Chunk) :
    p.printChunk c = (Printing.visit ⟨p, .ofUnit p.style.indent⟩ (.chunk c)).map fun w =>
      p.style.finish w.canvas.output := by
  rw [Printer.printChunk, p.print_eq_run, Printing.visit]
  change _ = Except.map _ (do return Printing.mk p (← (Stmt.blockDoc p.registry c.block).run _))
  cases (Stmt.blockDoc p.registry c.block).run (.ofUnit p.style.indent) <;> rfl

theorem Printer.printChunk_append {p : Printer} (hreg : p.registry.Balanced)
    (h : p.style.trailingNewline = true) (s t : Block) : p.printChunk ⟨s ++ t⟩ = do
      let first ← p.printChunk ⟨s⟩
      let second ← p.printChunk ⟨t⟩
      return first ++ second := by
  have hblock (b : Block) : (Stmt.blockDoc p.registry b).Balanced :=
    (Node.block b).balanced_doc fun _ _ _ => hreg
  have happend : Stmt.blockDoc p.registry (s ++ t) =
      Stmt.blockDoc p.registry s ++ Stmt.blockDoc p.registry t := by
    simp only [Stmt.blockDoc_eq_flatMap, List.flatMap_append]
  simp only [Printer.printChunk_of_trailingNewline h, happend,
    (hblock s).print_append (hblock t) p]

theorem Printer.visit_balanced_frame (p : Printer) (hreg : p.registry.Balanced) :
    (∀ (c : Canvas) (n : Node), Printing.visit ⟨p, c⟩ n =
      (n.textAt p.registry c.unit c.depth).map fun t => ⟨p, c.append t⟩) ∧
    (∀ c : Chunk, p.printChunk c =
      (Printing.visit ⟨p, .ofUnit p.style.indent⟩ (.chunk c)).map fun w =>
        p.style.finish w.canvas.output) ∧
    (p.style.trailingNewline = true → ∀ s t : Block, p.printChunk ⟨s ++ t⟩ = do
      let first ← p.printChunk ⟨s⟩
      let second ← p.printChunk ⟨t⟩
      return first ++ second) :=
  ⟨Printing.visit_eq hreg, p.printChunk_eq_visit, printChunk_append hreg⟩

theorem Printer.visit_frame (p : Printer) (hreg : p.registry.Standard) :
    (∀ (c : Canvas) (n : Node), Printing.visit ⟨p, c⟩ n =
      (n.textAt p.registry c.unit c.depth).map fun t => ⟨p, c.append t⟩) ∧
    (∀ c : Chunk, p.printChunk c =
      (Printing.visit ⟨p, .ofUnit p.style.indent⟩ (.chunk c)).map fun w =>
        p.style.finish w.canvas.output) ∧
    (p.style.trailingNewline = true → ∀ s t : Block, p.printChunk ⟨s ++ t⟩ = do
      let first ← p.printChunk ⟨s⟩
      let second ← p.printChunk ⟨t⟩
      return first ++ second) :=
  p.visit_balanced_frame hreg.balanced

theorem Printer.visit_frame_lines :
    Printer.printChunk { registry := [("lines", .lines)] }
      ⟨[.doBlock [.custom ⟨"lines", [.varArgs]⟩]] ++ [.returns [.symbol "x"]]⟩ =
        .ok "do\n  begin\n    ...\n  finish\nend\nreturn x\n" := by
  rw [(Printer.visit_frame _ (by simp [Registry.Standard])).2.2 rfl]
  decide +kernel

end LuauSyntax
