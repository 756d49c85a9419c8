import LuauSyntax.Proofs.Doc.Balanced
import Mathlib.Data.Finset.Lattice.Fold
import Mathlib.Data.List.Induction

namespace LuauSyntax

namespace Edit

def net (es : List Edit) : Int :=
  es.count .push - es.count .pop

def lowest (es : List Edit) : Int :=
  (Finset.range (es.length + 1)).inf' Finset.nonempty_range_add_one fun k => net (es.take k)

def level (es : List Edit) : Nat :=
  (net es - min 0 (lowest es)).toNat

def texts (unit : String) (es : List Edit) : List String :=
  es.mapIdx fun k e => Piece.textAt unit (level (es.take k)) (.edit e)

theorem net_append (es fs : List Edit) : net (es ++ fs) = net es + net fs := by
  simp only [net, List.count_append]
  omega

theorem lowest_le_net (es : List Edit) : lowest es ≤ net es := by
  have h := Finset.inf'_le (fun k => net (es.take k)) (Finset.self_mem_range_succ es.length)
  rwa [List.take_length] at h

theorem lowest_concat (es : List Edit) (e : Edit) :
    lowest (es ++ [e]) = min (lowest es) (net (es ++ [e])) := by
  have hbefore : ∀ k ∈ Finset.range (es.length + 1),
      net ((es ++ [e]).take k) = net (es.take k) := by
    intro k hk
    rw [List.take_append_of_le_length (Nat.lt_succ_iff.mp (Finset.mem_range.mp hk))]
  have hend : (es ++ [e]).take (es.length + 1) = es ++ [e] := by
    simp
  simp only [lowest, List.length_append, List.length_singleton,
    Finset.range_add_one (n := es.length + 1)]
  rw [Finset.inf'_insert Finset.nonempty_range_add_one, hend, Finset.inf'_congr _ rfl hbefore]
  exact min_comm _ _

theorem natCast_level (es : List Edit) : (level es : Int) = net es - min 0 (lowest es) := by
  have hle := lowest_le_net es
  rw [level]
  omega

theorem level_concat (es : List Edit) (e : Edit) :
    level (es ++ [e]) = (level es + net [e]).toNat := by
  have hle := lowest_le_net es
  rw [natCast_level, level, lowest_concat, net_append]
  -- A count below all earlier ones becomes the lowest value itself, so the level there is zero.
  omega

theorem texts_concat (unit : String) (es : List Edit) (e : Edit) :
    texts unit (es ++ [e]) = texts unit es ++ [Piece.textAt unit (level es) (.edit e)] := by
  rw [texts, List.mapIdx_concat, List.take_left]
  congr 1
  refine List.mapIdx_eq_mapIdx_iff.mpr fun k hk => ?_
  rw [List.take_append_of_le_length hk.le]

end Edit

namespace Canvas

def editAll (c : Canvas) (es : List Edit) : Canvas :=
  es.foldl edit c

theorem editAll_concat (c : Canvas) (es : List Edit) (e : Edit) :
    c.editAll (es ++ [e]) = (c.editAll es).edit e :=
  List.foldl_concat ..

theorem edit_eq (c : Canvas) (e : Edit) : c.edit e =
    { c.append (Piece.textAt c.unit c.depth (.edit e)) with
      depth := (c.depth + Edit.net [e]).toNat } := by
  cases e with
  | push => simp [edit, append, Piece.textAt, Edit.net]
  | pop =>
      have hdepth : c.depth - 1 = (c.depth + -1 : Int).toNat := by omega
      simpa [edit, append, Piece.textAt, Edit.net] using hdepth
  | append t | indented t | line t =>
      simp [edit, append, Piece.textAt, Edit.net, margin, Line.margin, String.append_assoc]

theorem editAll_ofUnit (unit : String) (es : List Edit) : (ofUnit unit).editAll es =
    { unit, depth := Edit.level es, output := String.join (Edit.texts unit es) } := by
  -- From the end of the list, since the last edit sees the level of all before it.
  induction es using List.reverseRecOn with
  | nil => rfl
  | append_singleton es e ih =>
      rw [editAll_concat, ih, edit_eq, Edit.level_concat, Edit.texts_concat, String.join_append]
      simp [append]

theorem editAll_history (unit : String) (es : List Edit) :
    (((ofUnit unit).editAll es).depth : Int) = Edit.net es - min 0 (Edit.lowest es) ∧
    ((ofUnit unit).editAll es).margin = Line.margin unit (Edit.level es) ∧
    ((ofUnit unit).editAll es).output = String.join (Edit.texts unit es) := by
  rw [editAll_ofUnit]
  exact ⟨Edit.natCast_level es, rfl, rfl⟩

example : Edit.texts "\t" [.pop, .pop, .push, .line "x", .pop, .pop, .indented "y"] =
    ["", "", "", "\tx\n", "", "", "y"] := by
  decide

end Canvas

end LuauSyntax
