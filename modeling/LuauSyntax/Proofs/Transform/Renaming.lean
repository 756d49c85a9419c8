import LuauSyntax.Proofs.Node.Leaves
import LuauSyntax.Proofs.Node.Visit
import LuauSyntax.Proofs.Transform.Children
import LuauSyntax.Transform.Basic

namespace LuauSyntax

open Transform

def renamed (old new name : String) : String :=
  if name = old then new else name

theorem renamed_renamed {old new name : String} (h : name ≠ new) :
    renamed new old (renamed old new name) = name := by
  by_cases hold : name = old
  · simp [renamed, hold]
  · simp [renamed, hold, h]

namespace Transform

variable (old new : String)

theorem descends_rename : (rename old new).Descends :=
  ⟨fun _ => rfl, fun _ => rfl, fun _ => rfl, fun _ => rfl⟩

theorem expr_rename_of_ne_symbol {e : Expr} (h : ∀ name, e ≠ .symbol name) :
    (rename old new).expr e = pure .descend := by
  cases e with
  | symbol name => exact absurd rfl (h name)
  | _ => rfl

end Transform

namespace Node

variable (old new : String)

def renameSymbols (n : Node) : Node :=
  Id.run (n.transform (rename old new))

theorem renameSymbols_symbol (name : String) :
    (Node.expr (.symbol name)).renameSymbols old new = .expr (.symbol (renamed old new name)) := by
  change Node.expr (Decision.resolve (m := Id)
    (if name = old then .replace (.symbol new) else .descend) (pure (.symbol name))) = _
  by_cases h : name = old
  · rw [if_pos h, renamed, if_pos h]
    rfl
  · rw [if_neg h, renamed, if_neg h]
    rfl

theorem renameSymbols_eq {n : Node} (h : n.symbol? = none) :
    (n.renameSymbols old new).children = n.children.map (renameSymbols old new) ∧
      (n.renameSymbols old new).refill = n.refill := by
  have hdescend (e : Expr) (he : n = .expr e) : (rename old new).expr e = pure .descend := by
    apply expr_rename_of_ne_symbol
    rintro name rfl
    rw [he] at h
    cases h
  obtain ⟨n', ht, hc, hr⟩ :=
    exists_transform_eq_of_keep (descends_rename old new) (fun _ => rfl) hdescend
  have hn' : n.renameSymbols old new = n' := by
    refine ht.trans ?_
    cases n' <;> rfl
  rw [hn']
  exact ⟨hc, hr⟩

theorem symbols_renameSymbols (n : Node) :
    (n.renameSymbols old new).symbols = n.symbols.map (renamed old new) := by
  induction n using inductionOn with
  | step n ih =>
      cases hn : n.symbol? with
      | some name =>
          rw [symbol?_eq_some_iff.mp hn, renameSymbols_symbol]
          rfl
      | none =>
          obtain ⟨hc, hr⟩ := renameSymbols_eq old new hn
          rw [symbols_eq, n.symbols_eq, symbol?_eq_of_refill_eq hr, hn, hc, List.map_append,
            List.map_flatMap, List.flatMap_map]
          exact congrArg _ (List.flatMap_congr ih)

theorem renameSymbols_renameSymbols {n : Node} (h : new ∉ n.symbols) :
    (n.renameSymbols old new).renameSymbols new old = n := by
  induction n using inductionOn with
  | step n ih =>
      rw [symbols_eq, List.mem_append, List.mem_flatMap, not_or] at h
      obtain ⟨hown, hbelow⟩ := h
      cases hn : n.symbol? with
      | some name =>
          have hname : name ≠ new := by
            rintro rfl
            simp [hn] at hown
          rw [symbol?_eq_some_iff.mp hn, renameSymbols_symbol, renameSymbols_symbol,
            renamed_renamed hname]
      | none =>
          obtain ⟨hc, hr⟩ := renameSymbols_eq old new hn
          have hn' := (symbol?_eq_of_refill_eq hr).trans hn
          obtain ⟨hc', hr'⟩ := renameSymbols_eq new old hn'
          -- Each child comes back, and around the children nothing has changed.
          have hback (c : Node) (hmem : c ∈ n.children) :
              (c.renameSymbols old new).renameSymbols new old = c :=
            ih c hmem fun hnew => hbelow ⟨c, hmem, hnew⟩
          refine eq_of_refill_eq (hr'.trans hr) ?_
          rw [hc', hc, List.map_map]
          exact (List.map_congr_left hback).trans (List.map_id _)

def collecting : Stop → StateM (List String) PUnit
  | .exprForm (.symbol name) => modify (· ++ [name])
  | _ => pure ⟨⟩

theorem run_collecting (s : Stop) (seen : List String) :
    (collecting s).run seen = (⟨⟩, seen ++ s.symbol?.toList) := by
  have hnone : (seen : List String) = seen ++ [] := (List.append_nil seen).symm
  cases s with
  | node _ | stmtForm _ => exact congrArg (Prod.mk _) hnone
  | exprForm e =>
      cases e with
      | symbol name => rfl
      | _ => exact congrArg (Prod.mk _) hnone

theorem visit_collecting (n : Node) : (n.visit collecting).run [] = (⟨⟩, n.symbols) :=
  n.run_visit_of_note run_collecting

end Node

def Chunk.collectedSymbols (c : Chunk) : List String :=
  (((Node.chunk c).visit Node.collecting).run []).2

theorem Chunk.collectedSymbols_eq (c : Chunk) : c.collectedSymbols = (Node.chunk c).symbols := by
  rw [collectedSymbols, Node.visit_collecting]

theorem Chunk.collectedSymbols_rename (old new : String) (c : Chunk) :
    (Id.run (c.transform (rename old new))).collectedSymbols =
        c.collectedSymbols.map (fun name => if name = old then new else name) ∧
      (new ∉ c.collectedSymbols →
        Id.run ((Id.run (c.transform (rename old new))).transform (rename new old)) = c) := by
  rw [collectedSymbols_eq, collectedSymbols_eq]
  constructor
  · exact Node.symbols_renameSymbols old new (.chunk c)
  · intro hnew
    exact Node.chunk.inj (Node.renameSymbols_renameSymbols old new hnew)

theorem Chunk.collectedSymbols_rename_typeof :
    (Id.run (Chunk.transform (rename "x" "y")
        ⟨[.localDecl ["x"] [some (.typeof (.symbol "x"))]
          [.call ⟨.name "x", [.method "x" [.custom ⟨"x", [.symbol "x", .symbol "z"]⟩]]⟩]]⟩)
      ).collectedSymbols = ["y", "y", "z"] ∧
      Id.run (Chunk.transform (rename "y" "x")
        (Id.run (Chunk.transform (rename "x" "y")
          ⟨[.localDecl ["x"] [some (.typeof (.symbol "x"))]
            [.call ⟨.name "x", [.method "x" [.custom ⟨"x", [.symbol "x", .symbol "z"]⟩]]⟩]]⟩))) =
        ⟨[.localDecl ["x"] [some (.typeof (.symbol "x"))]
          [.call ⟨.name "x", [.method "x" [.custom ⟨"x", [.symbol "x", .symbol "z"]⟩]]⟩]]⟩ := by
  refine ⟨(collectedSymbols_rename "x" "y" _).1.trans ?_,
    (collectedSymbols_rename "x" "y" _).2 ?_⟩
  · rw [collectedSymbols_eq]
    decide +kernel
  · rw [collectedSymbols_eq]
    decide +kernel

end LuauSyntax
