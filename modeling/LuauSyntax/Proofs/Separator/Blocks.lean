import LuauSyntax.Hint
import LuauSyntax.Proofs.Separator.First

namespace LuauSyntax

open Doc

namespace Stmt

variable {reg : Registry}

def WritesSeparator (reg : Registry) (s : Stmt) : Prop :=
  s.beginsWithExpr = true ∧ s.doc reg = margin ++ text ";" ++ s.bareDoc reg

def SeparatorsFollow (reg : Registry) (b : Block) : Prop :=
  ∀ before s after, b = before ++ s :: after → s.WritesSeparator reg →
    ∃ t ∈ before, t.isComment = false

theorem beginsWithExpr_of_startsWithParen {s : Stmt} (h : s.startsWithParen = true) :
    s.beginsWithExpr = true := by
  cases s with
  | assign | call => rfl
  | _ => simp [startsWithParen] at h

theorem writesSeparator_iff {s : Stmt} : s.WritesSeparator reg ↔ s.startsWithParen = true := by
  constructor
  · rintro ⟨hs, hdoc⟩
    cases hparen : s.startsWithParen with
    | true => rfl
    | false =>
        obtain ⟨d, hd, hbare⟩ := doc_of_not_startsWithParen reg hs hparen
        have heq : margin ++ d = margin ++ text ";" :=
          List.append_cancel_right (hbare.symm.trans hdoc)
        rcases List.mem_pair.mp hd with rfl | rfl
        · simp [text] at heq
        · simp [text] at heq
  · exact fun h => ⟨beginsWithExpr_of_startsWithParen h, doc_of_startsWithParen h⟩

theorem not_isComment_of_startsWithParen {s : Stmt} (h : s.startsWithParen = true) :
    s.isComment = false := by
  cases s with
  | comment => simp [startsWithParen] at h
  | _ => rfl

theorem separatorsFollow_iff {b : Block} : SeparatorsFollow reg b ↔
    ∀ s ∈ b.find? fun t => !t.isComment, s.startsWithParen = false := by
  constructor
  · intro h s hs
    obtain ⟨-, before, after, hb, hbefore⟩ := List.find?_eq_some_iff_append.mp hs
    cases hparen : s.startsWithParen with
    | false => rfl
    | true =>
        obtain ⟨t, ht, hstmt⟩ := h before s after hb (writesSeparator_iff.mpr hparen)
        have hcomment := hbefore t ht
        simp [hstmt] at hcomment
  · intro h before s after hb hs
    have hparen := writesSeparator_iff.mp hs
    by_contra hnone
    have hfirst : b.find? (fun t => !t.isComment) = some s := by
      refine List.find?_eq_some_iff_append.mpr ⟨?_, before, after, hb, fun t ht => ?_⟩
      · simp [not_isComment_of_startsWithParen hparen]
      · have hcomment : ¬t.isComment = false := fun ht' => hnone ⟨t, ht, ht'⟩
        simpa using hcomment
    have hnot := h s hfirst
    rw [hparen] at hnot
    contradiction

end Stmt

theorem Printer.separators_follow_iff (p : Printer) (c : Chunk)
    (hcustom : ∀ m ∈ (Node.chunk c).preorder, m.isCustom = false) {t : String}
    (ht : p.printChunk c = .ok t) :
    ∀ b ∈ (Node.chunk c).blocks,
      Stmt.blockDoc p.registry b <:+: Stmt.blockDoc p.registry c.block ∧
      (∀ s ∈ b, s.WritesSeparator p.registry ↔ s.startsWithParen = true) ∧
      (Stmt.SeparatorsFollow p.registry b ↔
        ∀ s ∈ b.find? fun t => !t.isComment, s.startsWithParen = false) := by
  intro b hb
  have hok := (p.exists_printChunk_eq_ok_iff c).mp ⟨t, ht⟩
  have hwithin : Stmt.blockDoc p.registry b <:+: (Node.chunk c).doc p.registry :=
    Node.infix_blockDoc (.chunk c) hcustom hok hb
  exact ⟨hwithin, fun s _ => Stmt.writesSeparator_iff, Stmt.separatorsFollow_iff⟩

theorem Printer.separators_follow_iff_do :
    Printer.printChunk {} ⟨[.doBlock [.comment "note", .assign [.symbol "x"] .assign [.symbol "y"],
        .call ⟨.expr (.symbol "f"), [.call []]⟩]]⟩ =
      .ok "do\n  -- note\n  x = y\n  ;(f)()\nend\n" ∧
    Stmt.SeparatorsFollow [] [.comment "note", .assign [.symbol "x"] .assign [.symbol "y"],
      .call ⟨.expr (.symbol "f"), [.call []]⟩] := by
  have hprint : Printer.printChunk {} ⟨[.doBlock [.comment "note",
      .assign [.symbol "x"] .assign [.symbol "y"], .call ⟨.expr (.symbol "f"), [.call []]⟩]]⟩ =
      .ok "do\n  -- note\n  x = y\n  ;(f)()\nend\n" := by decide +kernel
  refine ⟨hprint, ?_⟩
  exact ((Printer.separators_follow_iff {} _ (by decide +kernel) hprint
    [.comment "note", .assign [.symbol "x"] .assign [.symbol "y"],
      .call ⟨.expr (.symbol "f"), [.call []]⟩] (.tail _ (.head _))).2.2).mpr (by decide +kernel)

theorem Printer.separator_of_first_call :
    Printer.printChunk {} ⟨[.call ⟨.expr (.symbol "f"), [.call []]⟩]⟩ = .ok ";(f)()\n" ∧
    ¬Stmt.SeparatorsFollow [] [.call ⟨.expr (.symbol "f"), [.call []]⟩] := by
  refine ⟨by decide +kernel, fun h => ?_⟩
  obtain ⟨t, ht, -⟩ := h [] _ [] rfl (Stmt.writesSeparator_iff.mpr rfl)
  contradiction

end LuauSyntax
