import LuauSyntax.Proofs.Node.Induction
import Mathlib.Data.List.Flatten
import Mathlib.Data.List.ReduceOption

namespace LuauSyntax.Node

def genericNames (gs : Option Generics) : List Node :=
  gs.toList.flatMap fun g => .generics g :: g.map .genericParam

def signature : Node → List Node
  | .functionBody b => genericNames b.generics
  | .type (.callback gs _ _) => genericNames gs
  | _ => []

def parts : Node → List Node
  | .functionBody b =>
      b.parameters.map .parameter ++ ofAnnotations b.types ++ ofType? b.returns ++ [.block b.body]
  | .type (.callback _ as t) => as.map .typeArg ++ [.type t]
  | .stmt (.localDecl ns ts vs) => ofAnnotations (ts.take ns.length) ++ ofExprs vs
  | n => n.children

namespace Unfolding

attribute [scoped simp] Node.parts

end Unfolding

def shownAt (n : Node) (below : List (List Node)) : List Node :=
  match n with
  | .functionBody b => n :: n.signature ++ (below.drop b.generics.toList.length).flatten
  | .type (.callback gs _ _) => n :: n.signature ++ (below.drop gs.toList.length).flatten
  | .stmt (.localDecl ns ts _) =>
      n :: (below.take (ts.take ns.length).reduceOption.length
        ++ below.drop ts.reduceOption.length).flatten
  | n => n :: below.flatten

def shown : Node → List Node :=
  fold shownAt

theorem length_ofGenerics (gs : Option Generics) : (ofGenerics gs).length = gs.toList.length := by
  simp [ofGenerics]

theorem ofAnnotations_take_append_drop (ts : Annotations) (k : Nat) :
    ofAnnotations ts = ofAnnotations (ts.take k) ++ ofAnnotations (ts.drop k) := by
  rw [ofAnnotations, ofAnnotations, ofAnnotations, ← List.map_append, ← List.reduceOption_append,
    List.take_append_drop]

theorem shownAt_map_children (n : Node) (f : Node → List Node) :
    n.shownAt (n.children.map f) = n :: n.signature ++ n.parts.flatMap f := by
  rw [List.flatMap_def]
  cases n with
  | functionBody b =>
      simp only [shownAt, parts, children, FunctionBody.children, List.append_assoc,
        List.map_append]
      rw [List.drop_left' (by simp [length_ofGenerics])]
  | type t =>
      cases t with
      | callback gs as t =>
          simp only [shownAt, parts, children, Ty.children, List.append_assoc, List.map_append]
          rw [List.drop_left' (by simp [length_ofGenerics])]
      | _ => rfl
  | stmt s =>
      cases s with
      | localDecl ns ts vs =>
          simp only [shownAt, parts, children, Stmt.children, List.map_append]
          rw [List.drop_left' (by simp [ofAnnotations]),
            ofAnnotations_take_append_drop ts ns.length, List.map_append, List.append_assoc,
            List.take_left' (by simp [ofAnnotations])]
          rfl
      | _ => rfl
  | _ => rfl

theorem shown_eq (n : Node) : n.shown = n :: n.signature ++ n.parts.flatMap shown := by
  rw [← shownAt_map_children]
  exact fold_eq shownAt n

theorem parts_subset_children (n : Node) : n.parts ⊆ n.children := by
  cases n with
  | functionBody b =>
      simp only [parts, children, FunctionBody.children, List.append_assoc]
      exact List.subset_append_right _ _
  | type t =>
      cases t with
      | callback gs as t =>
          simp only [parts, children, Ty.children, List.append_assoc]
          exact List.subset_append_right _ _
      | _ => exact List.Subset.refl _
  | stmt s =>
      cases s with
      | localDecl ns ts vs =>
          simp only [parts, children, Stmt.children]
          rw [ofAnnotations_take_append_drop ts ns.length, List.append_assoc]
          exact List.append_subset.mpr ⟨List.subset_append_left _ _, by simp⟩
      | _ => exact List.Subset.refl _
  | _ => exact List.Subset.refl _

theorem genericNames_sublist (gs : Option Generics) :
    (genericNames gs).Sublist ((ofGenerics gs).flatMap preorder) := by
  have hself (n : Node) : [n].Sublist n.preorder := by simp [preorder_eq n]
  cases gs with
  | none => exact .slnil
  | some g =>
      have hparams : (g.map genericParam).Sublist ((g.map genericParam).flatMap preorder) := by
        simpa using List.Sublist.flatMap_right (g.map genericParam) fun n _ => hself n
      simpa [genericNames, ofGenerics, preorder_eq (.generics g), children] using hparams

theorem shown_sublist_preorder (n : Node) : n.shown.Sublist n.preorder := by
  induction n using Node.inductionOn with
  | step n ih =>
      have hparts : (n.parts.flatMap shown).Sublist (n.parts.flatMap preorder) :=
        List.Sublist.flatMap_right n.parts fun p hp => ih p (n.parts_subset_children hp)
      have hnames (gs : Option Generics) := (genericNames_sublist gs).append hparts
      rw [shown_eq, preorder_eq, List.cons_append]
      refine List.Sublist.cons_cons n ?_
      cases n with
      | functionBody b =>
          simpa [signature, parts, children, FunctionBody.children] using hnames b.generics
      | type t =>
          cases t with
          | callback gs as t => simpa [signature, parts, children, Ty.children] using hnames gs
          | _ => exact hparts
      | stmt s =>
          cases s with
          | localDecl ns ts vs =>
              refine hparts.trans (List.Sublist.flatMap ?_ preorder)
              simp only [parts, children, Stmt.children]
              rw [ofAnnotations_take_append_drop ts ns.length, List.append_assoc]
              exact (List.Sublist.refl _).append (List.sublist_append_right _ _)
          | _ => exact hparts
      | _ => exact hparts

theorem filterMap_shown {α : Type} (f : Node → Option α) (hgenerics : ∀ gs, f (.generics gs) = none)
    (hparam : ∀ g, f (.genericParam g) = none) (n : Node) :
    n.shown.filterMap f = (f n).toList ++ n.parts.flatMap fun p => p.shown.filterMap f := by
  have hnames (gs : Option Generics) : (genericNames gs).filterMap f = [] := by
    cases gs <;> simp [genericNames, hgenerics, hparam]
  have hsignature : n.signature.filterMap f = [] := by
    unfold signature
    split <;> first | exact hnames _ | rfl
  have hhead : [n].filterMap f = (f n).toList := by
    cases h : f n <;> simp [h]
  rw [shown_eq, ← List.singleton_append, List.filterMap_append, List.filterMap_append, hhead,
    hsignature, List.append_nil, List.filterMap_flatMap]

def block? : Node → Option Block
  | .block b => some b
  | _ => none

def blocks (n : Node) : List Block :=
  n.shown.filterMap block?

theorem blocks_eq (n : Node) : n.blocks = n.block?.toList ++ n.parts.flatMap blocks :=
  filterMap_shown block? (fun _ => rfl) (fun _ => rfl) n

theorem mem_blocks_iff {n : Node} {b : Block} : b ∈ n.blocks ↔ .block b ∈ n.shown := by
  simp only [blocks, List.mem_filterMap]
  constructor
  · rintro ⟨m, hm, hb⟩
    cases m <;> simp_all [block?]
  · exact fun h => ⟨_, h, rfl⟩

inductive Reaches : Node → Node → Prop
  | self (n : Node) : Reaches n n
  | part {n p m : Node} (hp : p ∈ n.parts) (hm : Reaches p m) : Reaches n m

theorem Reaches.trans {n m k : Node} (hn : n.Reaches m) (hm : m.Reaches k) : n.Reaches k := by
  induction hn with
  | self => exact hm
  | part hp _ ih => exact .part hp (ih hm)

theorem Reaches.forall_mem_preorder {P : Node → Prop} {n m : Node} (h : n.Reaches m)
    (hn : ∀ k ∈ n.preorder, P k) : ∀ k ∈ m.preorder, P k := by
  induction h with
  | self => exact hn
  | @part n p m hp _ ih =>
      exact ih ((Node.forall_mem_preorder.mp hn).2 p (n.parts_subset_children hp))

theorem reaches_of_mem_blocks {n : Node} {b : Block} (h : b ∈ n.blocks) : n.Reaches (.block b) := by
  induction n using Node.inductionOn with
  | step n ih =>
      rw [blocks_eq, List.mem_append] at h
      rcases h with h | h
      · cases n with
        | block b' =>
            have hb : b = b' := by simpa [block?] using h
            exact hb ▸ .self _
        | _ => simp [block?] at h
      · obtain ⟨p, hp, hb⟩ := List.mem_flatMap.mp h
        exact .part hp (ih p (n.parts_subset_children hp) hb)

end LuauSyntax.Node

namespace LuauSyntax

theorem Ty.blocks_of_isBasic {t : Ty} (h : t.isBasic = true) : (Node.type t).blocks = [] := by
  cases t <;> first | rfl | simp [Ty.isBasic] at h

end LuauSyntax
