import LuauSyntax.Proofs.Node.Visit
import LuauSyntax.Proofs.Transform.Telling
import LuauSyntax.Transform.Basic

namespace LuauSyntax

namespace Transform

theorem identity_eq_telling : identity = telling fun _ => pure ⟨⟩ := rfl

theorem recording_eq_telling : recording = telling fun n => modify (· ++ [n]) := rfl

theorem told_pure {α : Type} (ns : List Node) (a : α) :
    Id.run (told (fun _ => pure ⟨⟩) ns a) = a := by
  induction ns with
  | nil => rfl
  | cons n ns ih => exact ih

theorem run_told_modify {α : Type} (ns seen : List Node) (a : α) :
    (told (fun n => modify (· ++ [n])) ns a : StateM (List Node) α).run seen =
      (a, seen ++ ns) := by
  induction ns generalizing seen with
  | nil => exact congrArg (Prod.mk a) (List.append_nil seen).symm
  | cons n ns ih =>
      have hrest := ih (seen ++ [n])
      rw [List.append_assoc] at hrest
      exact hrest

end Transform

open Transform (told)

theorem Node.transform_identity (n : Node) : Id.run (n.transform .identity) = n := by
  rw [Transform.identity_eq_telling, n.transform_telling]
  exact Transform.told_pure _ n

theorem Chunk.transform_telling {m : Type → Type} [Monad m] [LawfulMonad m] (tell : Node → m PUnit)
    (c : Chunk) :
    c.transform (.telling tell) = told tell ((Node.chunk c).preorder.filter Node.isPhrase) c := by
  rw [← Node.fold_phrasesAt]
  simp [Chunk.transform, Node.fold, Node.phrasesAt, Node.isPhrase, Stmt.transformBlock_telling]

namespace Node

def recordingPhrases : Stop → StateM (List Node) PUnit
  | .node (.stmt s) => modify (· ++ [.stmt s])
  | .node (.expr e) => modify (· ++ [.expr e])
  | .node (.type t) => modify (· ++ [.type t])
  | _ => pure ⟨⟩

theorem run_recordingPhrases (s : Stop) (seen : List Node) :
    (recordingPhrases s).run seen = (⟨⟩, seen ++ (s.node?.filter isPhrase).toList) := by
  have hnone : seen = seen ++ [] := (List.append_nil seen).symm
  cases s with
  | stmtForm _ | exprForm _ => exact congrArg (Prod.mk _) hnone
  | node n =>
      cases n with
      | stmt _ | expr _ | type _ => rfl
      | _ => exact congrArg (Prod.mk _) hnone

theorem visit_recordingPhrases (n : Node) :
    (n.visit recordingPhrases).run [] = (⟨⟩, n.preorder.filter isPhrase) := by
  rw [run_visit_of_note run_recordingPhrases, ← List.filter_filterMap, filterMap_node?_stops]

end Node

theorem Chunk.transform_recording (c : Chunk) :
    ∃ ns : List Node,
      (c.transform .recording).run [] = (c, ns) ∧
        ((Node.chunk c).visit Node.recordingPhrases).run [] = (⟨⟩, ns) ∧
        ns = (Node.chunk c).preorder.filter Node.isPhrase ∧
        ∀ n : Node, n.preorder = n :: n.children.flatMap Node.preorder := by
  refine ⟨_, ?_, (Node.chunk c).visit_recordingPhrases, rfl, Node.preorder_eq⟩
  rw [Transform.recording_eq_telling, c.transform_telling]
  simpa using Transform.run_told_modify _ [] c

end LuauSyntax
