import LuauSyntax.Proofs.Node.Stops

namespace LuauSyntax

namespace Node

section

variable {m : Type → Type} [Monad m] (enter : Stop → m PUnit)

def visit (n : Node) : m PUnit := do
  enter (.node n)
  match n with
  | .stmt s =>
      enter (.stmtForm s)
      match s with
      | .breakLoop | .continueLoop | .goto _ | .label _ | .comment _ => pure ⟨⟩
      | .call c => visit (.call c)
      | s => s.children.attach.forM fun ⟨c, _⟩ => visit c
  | .expr (.call c) => visit (.call c)
  | .expr e =>
      enter (.exprForm e)
      match e with
      | .literal _ | .symbol _ | .varArgs => pure ⟨⟩
      | .paren e => visit (.expr e)
      | e => e.children.attach.forM fun ⟨c, _⟩ => visit c
  | .parameter _ => pure ⟨⟩
  | n => n.children.attach.forM fun ⟨c, _⟩ => visit c
termination_by n.size
decreasing_by
  all_goals apply size_lt_of_mem_children
  all_goals first | assumption | simp [children, Stmt.children, Expr.children]

theorem forM_congr {α : Type} {f g : α → m PUnit} {l : List α} (h : ∀ a ∈ l, f a = g a) :
    forM l f = forM l g := by
  induction l with
  | nil => simp
  | cons a l ih =>
      have hrest := ih fun b hb => h b (List.mem_cons_of_mem a hb)
      simp [h a (List.mem_cons_self ..), hrest]

variable [LawfulMonad m]

theorem forM_attach_visit (cs : List Node) :
    (forM cs.attach fun c => visit enter c.1) = forM cs (visit enter) := by
  conv_rhs => rw [← cs.attach_map_subtype_val, List.forM_map]

theorem visit_eq (n : Node) :
    n.visit enter = (do forM n.stopsAt enter; forM n.children (visit enter)) := by
  unfold visit
  cases n with
  | stmt s => cases s <;> simp [stopsAt, form?, children, Stmt.children, forM_attach_visit]
  | expr e => cases e <;> simp [stopsAt, form?, children, Expr.children, forM_attach_visit]
  | _ => simp [stopsAt, form?, children, forM_attach_visit]

theorem forM_flatMap {α β : Type} (f : β → m PUnit) (g : α → List β) (l : List α) :
    forM (l.flatMap g) f = forM l fun a => forM (g a) f := by
  induction l with
  | nil => simp
  | cons a l ih => simp [ih]

theorem visit_eq_forM_stops (n : Node) : n.visit enter = forM n.stops enter := by
  induction n using Node.inductionOn with
  | step n ih =>
      have hbelow : forM n.children (visit enter) =
          forM (n.children.flatMap fun c => c.preorder.flatMap stopsAt) enter := by
        rw [forM_flatMap]
        exact forM_congr fun c hc => by rw [ih c hc, stops_eq]
      rw [visit_eq, hbelow, stops_eq, preorder_eq, List.flatMap_cons, List.flatMap_assoc,
        List.forM_append]

end

section

variable {α : Type} {enter : Stop → StateM (List α) PUnit} {note : Stop → Option α}

theorem run_forM_of_note (h : ∀ s seen, (enter s).run seen = (⟨⟩, seen ++ (note s).toList))
    (stops : List Stop) (seen : List α) :
    (forM stops enter).run seen = (⟨⟩, seen ++ stops.filterMap note) := by
  induction stops generalizing seen with
  | nil => exact congrArg (Prod.mk _) (List.append_nil seen).symm
  | cons s stops ih =>
      have hnotes : (s :: stops).filterMap note = (note s).toList ++ stops.filterMap note := by
        cases hs : note s <;> simp [hs]
      rw [List.forM_cons, StateT.run_bind, h, hnotes, ← List.append_assoc]
      exact ih _

theorem run_visit_of_note (h : ∀ s seen, (enter s).run seen = (⟨⟩, seen ++ (note s).toList))
    (n : Node) : (n.visit enter).run [] = (⟨⟩, n.stops.filterMap note) := by
  rw [visit_eq_forM_stops, run_forM_of_note h, List.nil_append]

end

def recording {α : Type} (note : Node → α) : Stop → StateM (List α) PUnit
  | .node n => modify (· ++ [note n])
  | _ => pure ⟨⟩

theorem run_recording {α : Type} (note : Node → α) (s : Stop) (seen : List α) :
    (recording note s).run seen = (⟨⟩, seen ++ (s.node?.map note).toList) := by
  cases s with
  | node n => rfl
  | stmtForm _ | exprForm _ => exact congrArg (Prod.mk _) (List.append_nil seen).symm

theorem length_preorder (n : Node) : n.preorder.length = n.size := by
  induction n using Node.inductionOn with
  | step n ih =>
      rw [preorder_eq, List.length_cons, List.length_flatMap, List.map_congr_left ih, size_eq,
        List.sum_eq_foldr, Nat.add_comm]

theorem visit_records_preorder {α : Type} (note : Node → α) (n : Node) :
    (n.visit (recording note)).run [] = (⟨⟩, n.preorder.map note) ∧
      n.preorder = n :: n.children.flatMap preorder ∧
      (n.preorder.map note).length = n.size := by
  refine ⟨?_, preorder_eq n, ?_⟩
  · rw [run_visit_of_note (run_recording note), ← List.map_filterMap, filterMap_node?_stops]
  · rw [List.length_map, length_preorder]

end Node

end LuauSyntax
