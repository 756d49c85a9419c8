import LuauSyntax.Proofs.Doc.Forms

namespace LuauSyntax

open Doc

def CustomRenderer.Balanced (r : CustomRenderer) : Prop :=
  ∀ kind ds, AllBalanced ds → Doc.Balanced (r kind ds)

def Registry.Balanced (reg : Registry) : Prop :=
  ∀ e ∈ reg, e.2.Balanced

namespace CustomRenderer

theorem pair_balanced : pair.Balanced := by
  intro kind ds h k
  simp [pair, h]

theorem switch_balanced : switch.Balanced := by
  intro kind ds h k
  cases ds with
  | nil => rfl
  | cons d ds =>
      obtain ⟨hd, -⟩ := (allBalanced_cons d ds).mp h
      simp [switch, hd]

theorem lines_balanced : lines.Balanced := by
  intro kind ds h k
  simp [lines, depth?_lines h newline fun _ => rfl]

end CustomRenderer

variable {reg : Registry}

theorem Registry.depth?_customDoc (hreg : reg.Balanced) (kind : String) {ds : List Doc}
    (h : AllBalanced ds) (k : Nat) : (reg.customDoc kind ds).depth? k = some k := by
  unfold Registry.customDoc
  split
  · rfl
  · rename_i r hr
    obtain ⟨before, after, rfl, _⟩ := List.lookup_eq_some_iff.mp hr
    exact hreg (kind, r) (by simp) kind ds h k

theorem Registry.Balanced.keeps (hreg : reg.Balanced) : reg.Keeps Doc.Balanced := by
  intro kind ds h
  have hds : AllBalanced ds := fun d hd => (h d hd).balanced fun _ hd => hd
  exact .given (Registry.depth?_customDoc hreg kind hds)

theorem Node.balanced_doc (n : Node)
    (hreg : ∀ m ∈ n.preorder, m.isCustom = true → reg.Balanced) : (n.doc reg).Balanced := by
  have hformed : n.Formed Doc.Balanced reg := n.formed fun m hm hm' => (hreg m hm hm').keeps
  exact hformed.balanced fun _ hd => hd

end LuauSyntax
