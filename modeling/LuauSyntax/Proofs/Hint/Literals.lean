import LuauSyntax.Proofs.Hint.Edits
import LuauSyntax.Proofs.Node.Leaves

namespace LuauSyntax.Node

theorem literals_of_isComment {n : Node} (h : n.isComment) : n.literals = [] := by
  cases n with
  | stmt s =>
      obtain ⟨text, rfl⟩ := Stmt.exists_eq_comment h
      rfl
  | _ => simp [isComment] at h

theorem literals_tidied (n : Node) : n.tidied.literals = n.literals := by
  cases n with
  | block b =>
      simp only [tidied, literals_eq (.block _), children, literal?, List.flatMap_map]
      induction b with
      | nil => rfl
      | cons s b ih =>
          by_cases hs : s.isComment
          · have hliterals := literals_of_isComment (n := .stmt s) hs
            simpa [Transform.keep_strip, hs, hliterals] using ih
          · simpa [Transform.keep_strip, hs] using ih
  | expr e =>
      cases e with
      | table t => simp only [tidied, rebuilt, literals_eq (.expr _)]; rfl
      | _ => rfl
  | _ => rfl

theorem literals_stripped (n : Node) : n.stripped.literals = n.literals := by
  induction n using inductionOn with
  | step n ih =>
      obtain ⟨n', hs, hc, hr⟩ := n.exists_stripped_eq
      rw [hs, literals_tidied, literals_eq, n.literals_eq, literal?_eq_of_refill_eq hr, hc,
        List.flatMap_map]
      exact congrArg _ (List.flatMap_congr ih)

end LuauSyntax.Node
