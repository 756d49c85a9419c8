import LuauSyntax.Proofs.Node.Induction

namespace LuauSyntax

def GenericName.word : GenericName → String
  | .single n | .pack n => n

namespace Node

def isCustom : Node → Bool
  | .stmt (.custom _) | .expr (.custom _) => true
  | _ => false

def rawTexts : Node → List String
  | .stmt (.localDecl ns _ _) => ns
  | .stmt (.function n _) => n.path ++ n.method.toList
  | .stmt (.numericFor n _ _ _ _) => [n]
  | .stmt (.genericFor ns _ _) => ns
  | .stmt (.goto l) => [l]
  | .stmt (.label n) => [n]
  | .stmt (.typeDecl _ n _ _) => [n]
  | .expr (.symbol n) => [n]
  | .segment (.text t) => [t]
  | .tableField (.named k _) => [k]
  | .callHead (.name n) => [n]
  | .suffix (.method n _) => [n]
  | .suffix (.dot n) => [n]
  | .parameter (.name n) => [n]
  | .genericParam g => [g.name.word]
  | .type (.basic n) => [n]
  | .type (.generic b _) => [b]
  | .typeField (.named _ k _) => [k]
  | .typeArg a => a.name.toList
  | _ => []

namespace Unfolding

attribute [scoped simp] isCustom rawTexts

end Unfolding

def Plain (n : Node) : Prop :=
  ∀ m ∈ n.preorder, m.isCustom = false ∧ ∀ t ∈ m.rawTexts, '\n' ∉ t.toList

instance : DecidablePred Plain := fun n =>
  inferInstanceAs (Decidable (∀ m ∈ n.preorder, _))

theorem Plain.not_custom {n : Node} (h : n.Plain) : n.isCustom = false :=
  (forall_mem_preorder.mp h).1.1

theorem Plain.rawTexts {n : Node} (h : n.Plain) : ∀ t ∈ n.rawTexts, '\n' ∉ t.toList :=
  (forall_mem_preorder.mp h).1.2

theorem Plain.child {m n : Node} (h : n.Plain) (hm : m ∈ n.children) : m.Plain :=
  (forall_mem_preorder.mp h).2 m hm

end Node

end LuauSyntax
