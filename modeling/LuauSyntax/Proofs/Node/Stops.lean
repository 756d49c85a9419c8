import LuauSyntax.Node.Walk
import LuauSyntax.Proofs.Node.Induction

namespace LuauSyntax.Node

def stopsAt (n : Node) : List Stop :=
  .node n :: n.form?.toList

theorem walk_eq (skip : Node → Bool) (n : Node) (depth : Nat) :
    n.walk skip depth =
      if skip n then []
      else match n.form? with
        | none => (depth, .node n) :: n.children.flatMap (walk skip · (depth + 1))
        | some form =>
            (depth, .node n) :: (depth + 1, form)
              :: n.children.flatMap (walk skip · (depth + 2)) := by
  refine (congrFun (fold_eq _ n) depth).trans ?_
  simp only [List.flatMap_map]
  rfl

theorem map_snd_walk (n : Node) (depth : Nat) :
    (n.walk (fun _ => false) depth).map Prod.snd = n.preorder.flatMap stopsAt := by
  induction n using Node.inductionOn generalizing depth with
  | step n ih =>
      -- The depth of a child differs with the form of its parent, hence for every depth.
      have hbelow (k : Nat) :
          (n.children.flatMap fun c => (c.walk (fun _ => false) k).map Prod.snd) =
            n.children.flatMap fun c => c.preorder.flatMap stopsAt :=
        List.flatMap_congr fun c hc => ih c hc k
      rw [preorder_eq, List.flatMap_cons, List.flatMap_assoc, walk_eq, if_neg (by simp), stopsAt]
      cases n.form? <;> simp [List.map_flatMap, hbelow]

theorem stops_eq (n : Node) : n.stops = n.preorder.flatMap stopsAt :=
  n.map_snd_walk 0

theorem filterMap_node?_stopsAt (n : Node) : n.stopsAt.filterMap Stop.node? = [n] := by
  have hform : n.form?.toList.filterMap Stop.node? = [] := by
    unfold form?
    split <;> rfl
  rw [stopsAt, List.filterMap_cons_some (by rfl), hform]

theorem filterMap_node?_stops (n : Node) : n.stops.filterMap Stop.node? = n.preorder := by
  simp [stops_eq, List.filterMap_flatMap, filterMap_node?_stopsAt]

end LuauSyntax.Node
