import LuauSyntax.Proofs.Equality.Laws
import LuauSyntax.Proofs.Hint.Literals

namespace LuauSyntax

theorem Stmt.isComment_eq_of_equals {s s' : Stmt} (h : s.equals s') :
    s.isComment = s'.isComment := by
  cases s <;> cases s' <;> first | rfl | contradiction

theorem Stmt.equalAll_filter_keep {b b' : Block} (h : Stmt.equalAll b b') :
    Stmt.equalAll (b.filter Transform.strip.keep) (b'.filter Transform.strip.keep) := by
  induction b generalizing b' with
  | nil =>
      obtain rfl : b' = [] := List.isEmpty_iff.mp h
      rfl
  | cons s b ih =>
      cases b' with
      | nil => contradiction
      | cons s' b' =>
          obtain ⟨hs, hb⟩ : s.equals s' ∧ Stmt.equalAll b b' := by
            simpa [Stmt.equalAll] using h
          have hcomment := Stmt.isComment_eq_of_equals hs
          by_cases hkeep : s.isComment
          · simpa [Transform.keep_strip, hkeep, ← hcomment] using ih hb
          · simpa [Transform.keep_strip, hkeep, ← hcomment, Stmt.equalAll, hs] using ih hb

theorem Expr.equals_rebuiltExpr {e e' : Expr} (h : e.equals e') :
    Expr.equals (Transform.strip.rebuiltExpr e) (Transform.strip.rebuiltExpr e') := by
  cases e with
  | table t =>
      cases e' with
      | table t' =>
          have hfields := (Table.equals_iff.mp h).1
          exact Table.equals_iff.mpr ⟨hfields, rfl⟩
      | _ => contradiction
  | _ => cases e' <;> exact h

namespace Node

theorem Equal.tidied {n n' : Node} (h : n.Equal n') : n.tidied.Equal n'.tidied := by
  cases n with
  | block b =>
      cases n' with
      | block b' => exact Stmt.equalAll_filter_keep h
      | _ => contradiction
  | expr e =>
      cases n' with
      | expr e' => exact Expr.equals_rebuiltExpr h
      | _ => contradiction
  | _ => cases n' <;> exact h

theorem Equal.stripped {n n' : Node} (h : n.Equal n') : n.stripped.Equal n'.stripped := by
  induction n using inductionOn generalizing n' with
  | step n ih =>
      rcases equal_iff.mp h with ⟨x, y, hx, hy, hxy⟩ | ⟨hn, hr, hc⟩
      · obtain rfl := asNumber?_eq_some_iff.mp hx
        obtain rfl := asNumber?_eq_some_iff.mp hy
        exact hxy
      · obtain ⟨m, hm, hmc, hmr⟩ := n.exists_stripped_eq
        obtain ⟨m', hm', hmc', hmr'⟩ := n'.exists_stripped_eq
        have hchildren : List.Forall₂ Equal m.children m'.children := by
          rw [hmc, hmc', List.forall₂_map_left_iff, List.forall₂_map_right_iff]
          exact forall₂_of_forall₂ hc ih
        have hnumber : m.asNumber? = none := (asNumber?_eq_of_refill_eq hmr).trans hn
        have hrefill : m.refill = m'.refill := hmr.trans (hr.trans hmr'.symm)
        rw [hm, hm']
        exact (equal_of_refill_eq hrefill hchildren hnumber).tidied

theorem naNFree_stripped_iff {n : Node} : n.stripped.NaNFree ↔ n.NaNFree := by
  rw [NaNFree, literals_stripped, NaNFree]

end Node

structure ComparesStructure {α : Type} (node : α → Node) (equal same : α → α → Bool) : Prop where
  symm (a b : α) : same a b → same b a
  trans (a b c : α) : same a b → same b c → same a c
  self_iff (a : α) : same a a ↔ (node a).NaNFree
  of_equal (a b : α) : equal a b → same a b

theorem comparesStructure_of_iff {α : Type} {node : α → Node} {equal same : α → α → Bool}
    (hequal : ∀ a b, equal a b ↔ (node a).Equal (node b))
    (hsame : ∀ a b, same a b ↔ (node a).stripped.Equal (node b).stripped) :
    ComparesStructure node equal same where
  symm a b h := (hsame b a).mpr ((hsame a b).mp h).symm
  trans a b c h h' := (hsame a c).mpr (((hsame a b).mp h).trans ((hsame b c).mp h'))
  self_iff a := by rw [hsame, Node.equal_self_iff, Node.naNFree_stripped_iff]
  of_equal a b h := (hsame a b).mpr ((hequal a b).mp h).stripped

theorem sameStructure_compares :
    ComparesStructure .chunk Chunk.equals Chunk.sameStructure ∧
      ComparesStructure .block Stmt.equalAll Block.sameStructure ∧
      ComparesStructure .stmt Stmt.equals Stmt.sameStructure ∧
      ComparesStructure .expr Expr.equals Expr.sameStructure :=
  ⟨comparesStructure_of_iff (fun _ _ => .rfl) fun _ _ => .rfl,
    comparesStructure_of_iff (fun _ _ => .rfl) fun _ _ => .rfl,
    comparesStructure_of_iff (fun _ _ => .rfl) fun _ _ => .rfl,
    comparesStructure_of_iff (fun _ _ => .rfl) fun _ _ => .rfl⟩

end LuauSyntax
