import LuauSyntax.Node.Fold.Lemmas
import Mathlib.Algebra.Order.BigOperators.Group.List
import Mathlib.Algebra.Order.Group.Nat
import Mathlib.Data.List.ReduceOption

namespace LuauSyntax.Node

theorem size_eq (n : Node) : n.size = 1 + (n.children.map size).foldr (· + ·) 0 :=
  fold_eq _ n

theorem preorder_eq (n : Node) : n.preorder = n :: n.children.flatMap preorder := by
  rw [List.flatMap_def]
  exact fold_eq _ n

theorem size_lt_of_mem_children {m n : Node} (h : m ∈ n.children) : m.size < n.size := by
  have hm : m.size ≤ (n.children.map size).sum :=
    List.le_sum_of_mem (List.mem_map_of_mem h)
  have hn := size_eq n
  rw [← List.sum_eq_foldr] at hn
  omega

@[elab_as_elim]
theorem inductionOn {P : Node → Prop} (step : ∀ n, (∀ m ∈ n.children, P m) → P n) (n : Node) :
    P n := by
  induction hs : n.size using Nat.strongRecOn generalizing n with
  | _ k ih =>
      subst hs
      exact step n fun m hm => ih m.size (size_lt_of_mem_children hm) m rfl

theorem forall_mem_preorder {P : Node → Prop} {n : Node} :
    (∀ k ∈ n.preorder, P k) ↔ P n ∧ ∀ m ∈ n.children, ∀ k ∈ m.preorder, P k := by
  rw [preorder_eq, List.forall_mem_cons, List.forall_mem_flatMap]

theorem mem_preorder_self (n : Node) : n ∈ n.preorder := by
  rw [preorder_eq]
  exact .head _

theorem mem_preorder_of_child {c m n : Node} (hc : c ∈ n.children) (hm : m ∈ c.preorder) :
    m ∈ n.preorder := by
  rw [preorder_eq]
  exact .tail _ (List.mem_flatMap_of_mem hc hm)

theorem forall_mem_ofType? {P : Node → Prop} {ts : Annotations}
    (h : ∀ n ∈ ofAnnotations ts, P n) : ∀ t ∈ ts, ∀ n ∈ ofType? t, P n := by
  intro t ht n hn
  obtain ⟨u, rfl, rfl⟩ : ∃ u, t = some u ∧ Node.type u = n := by simpa [ofType?] using hn
  exact h (.type u) (List.mem_map_of_mem (List.reduceOption_mem_iff.mpr ht))

end LuauSyntax.Node
