import LuauSyntax.Proofs.Doc.Comments
import LuauSyntax.Proofs.Layout.Lines
import Mathlib.Data.List.Induction

namespace LuauSyntax

namespace Text

def unlines (ls : List String) : String :=
  String.join (ls.map (· ++ "\n"))

theorem unlines_append (ls ms : List String) : unlines (ls ++ ms) = unlines ls ++ unlines ms := by
  simp [unlines, String.join_append]

theorem unlines_singleton (l : String) : unlines [l] = l ++ "\n" := by
  simp [unlines]

theorem exists_eq_unlines (cs : List Char) :
    ∃ ls rest, String.ofList cs = unlines ls ++ rest ∧ (∀ l ∈ ls, '\n' ∉ l.toList) ∧
      '\n' ∉ rest.toList ∧ ((∀ c ∈ cs.getLast?, c = '\n') → rest = "") := by
  induction cs using List.reverseRecOn with
  | nil => exact ⟨[], "", rfl, by simp⟩
  | append_singleton cs c ih =>
      obtain ⟨ls, rest, hcs, hls, hrest, -⟩ := ih
      by_cases hc : c = '\n'
      · refine ⟨ls ++ [rest], "", ?_, ?_, by simp, fun _ => rfl⟩
        · rw [String.ofList_append, hcs, hc, unlines_append, unlines_singleton, String.append_assoc,
            String.append_empty]
        · exact List.forall_mem_append.mpr ⟨hls, by simpa using hrest⟩
      · refine ⟨ls, rest ++ String.ofList [c], ?_, hls, ?_, ?_⟩
        · rw [String.ofList_append, hcs, String.append_assoc]
        · simp [hrest, Ne.symm hc]
        · simp [hc]

inductive Sheds (unit : String) : List String → List String → List String → Prop
  | nil : Sheds unit [] [] []
  | keep (l : String) {ls ls' ts : List String} (h : Sheds unit ls ls' ts) :
      Sheds unit (l :: ls) (l :: ls') ts
  | drop (depth : Nat) (t : String) {ls ls' ts : List String} (h : Sheds unit ls ls' ts) :
      Sheds unit ((Line.margin unit depth ++ commentLine t) :: ls) ls' (t :: ts)

theorem Sheds.append {unit : String} {ls ls' ts ms ms' us : List String}
    (h : Sheds unit ls ls' ts) (hm : Sheds unit ms ms' us) :
    Sheds unit (ls ++ ms) (ls' ++ ms') (ts ++ us) := by
  induction h with
  | nil => exact hm
  | keep l _ ih => exact .keep l ih
  | drop depth t _ ih => exact .drop depth t ih

theorem Sheds.refl (unit : String) (ls : List String) : Sheds unit ls ls [] := by
  induction ls with
  | nil => exact .nil
  | cons l ls ih => exact .keep l ih

theorem Sheds.length_eq {unit : String} {ls ls' ts : List String} (h : Sheds unit ls ls' ts) :
    ls.length = ls'.length + ts.length := by
  induction h with
  | nil => rfl
  | keep l _ ih =>
      rw [List.length_cons, List.length_cons, ih]
      omega
  | drop depth t _ ih =>
      rw [List.length_cons, List.length_cons, ih]
      omega

theorem newline_not_mem_margin {unit : String} (h : '\n' ∉ unit.toList) (depth : Nat) :
    '\n' ∉ (Line.margin unit depth).toList := by
  induction depth with
  | zero => simp [Line.margin]
  | succ n ih => simp_all [Line.margin, List.replicate_succ]

end Text

namespace Canvas

open Text

/-- Two canvases with the same lines but for some lines of comment that only the first has. The line
that is being written is the same on both, and empty at the start of a line. -/
structure Sheds (unit : String) (start : Bool) (ts : List String) (c c' : Canvas) : Prop where
  newline_not_mem_unit : '\n' ∉ unit.toList
  unit_left : c.unit = unit
  unit_right : c'.unit = unit
  depth_eq : c.depth = c'.depth
  exists_lines : ∃ ls ls' rest, c.output = unlines ls ++ rest ∧ c'.output = unlines ls' ++ rest ∧
    Text.Sheds unit ls ls' ts ∧ (∀ l ∈ ls, '\n' ∉ l.toList) ∧ '\n' ∉ rest.toList ∧
    (start = true → rest = "")

variable {unit : String} {start stop : Bool} {ts : List String} {c c' : Canvas}

theorem sheds_ofUnit (h : '\n' ∉ unit.toList) :
    Sheds unit true [] (.ofUnit unit) (.ofUnit unit) :=
  ⟨h, rfl, rfl, rfl, [], [], "", rfl, rfl, .nil, by simp, by simp, fun _ => rfl⟩

theorem Sheds.append (h : Sheds unit start ts c c') {t : String}
    (hstop : stop = true → t = "" ∧ start = true ∨ t.toList.getLast? = some '\n') :
    Sheds unit stop ts (c.append t) (c'.append t) := by
  obtain ⟨hclear, hunit, hunit', hdepth, ls, ls', rest, hc, hc', hsheds, hls, hrest, hstart⟩ := h
  obtain ⟨ms, rest', hms, hclean, hrest', hlast⟩ := exists_eq_unlines (rest ++ t).toList
  rw [String.ofList_toList] at hms
  have hlines := hsheds.append (.refl unit ms)
  rw [List.append_nil] at hlines
  refine ⟨hclear, hunit, hunit', hdepth, ls ++ ms, ls' ++ ms, rest', ?_, ?_, hlines,
    List.forall_mem_append.mpr ⟨hls, hclean⟩, hrest', ?_⟩
  · rw [Canvas.append, hc, String.append_assoc, hms, unlines_append, String.append_assoc]
  · rw [Canvas.append, hc', String.append_assoc, hms, unlines_append, String.append_assoc]
  · intro h
    rcases hstop h with ⟨rfl, hs⟩ | ht
    · exact hlast (by simp [hstart hs])
    · exact hlast (by simp [List.getLast?_append, ht])

theorem Sheds.comment (h : Sheds unit true ts c c') {t : String}
    (ht : '\n' ∉ (commentLine t).toList) :
    Sheds unit true (ts ++ [t]) (c.edit (.line (commentLine t))) c' := by
  obtain ⟨hclear, rfl, hunit', hdepth, ls, ls', rest, hc, hc', hsheds, hls, -, hstart⟩ := h
  obtain rfl := hstart rfl
  have hline : Text.Sheds c.unit [c.margin ++ commentLine t] [] [t] := .drop c.depth t .nil
  have hlines := hsheds.append hline
  rw [List.append_nil] at hlines
  refine ⟨hclear, rfl, hunit', hdepth, ls ++ [c.margin ++ commentLine t], ls', "", ?_, hc', hlines,
    ?_, by simp, fun _ => rfl⟩
  · simp [Canvas.edit, Canvas.append, hc, unlines_append, unlines_singleton, String.append_assoc]
  · refine List.forall_mem_append.mpr ⟨hls, ?_⟩
    have hmargin : '\n' ∉ c.margin.toList := newline_not_mem_margin hclear c.depth
    simpa [hmargin] using ht

theorem Sheds.margin (h : Sheds unit start ts c c') :
    Sheds unit false ts (c.append c.margin) (c'.append c'.margin) := by
  have hmargin : c'.margin = c.margin := by
    rw [Canvas.margin, Canvas.margin, h.unit_left, h.unit_right, h.depth_eq]
  rw [hmargin]
  exact h.append (by simp)

theorem Sheds.piece (h : Sheds unit start ts c c') {p : Piece}
    (hstop : p.lineStart? start = some stop) : Sheds unit stop ts (p.draw c) (p.draw c') := by
  cases p with
  | measured f => simp [Piece.lineStart?] at hstop
  | custom kind => simp [Piece.lineStart?] at hstop
  | fail v =>
      obtain rfl : start = stop := by simpa [Piece.lineStart?] using hstop
      exact h
  | edit e =>
      cases e with
      | push =>
          obtain rfl : start = stop := by simpa [Piece.lineStart?] using hstop
          exact { h with depth_eq := congrArg (· + 1) h.depth_eq }
      | pop =>
          obtain rfl : start = stop := by simpa [Piece.lineStart?] using hstop
          exact { h with depth_eq := congrArg (· - 1) h.depth_eq }
      | append t =>
          refine h.append ?_
          rintro rfl
          by_cases ht : t = "" <;> simp_all [Piece.lineStart?]
      | indented t =>
          refine h.margin.append ?_
          rintro rfl
          simp_all [Piece.lineStart?]
      | line t =>
          have hline : Sheds unit false ts _ _ := h.margin.append (t := t) (by simp)
          exact hline.append fun _ => .inr rfl

end Canvas

open Canvas in
theorem Doc.sheds_draw {unit : String} {start stop : Bool} {ts : List String} {c c' : Canvas}
    {d : Doc} (h : Sheds unit start ts c c') (hd : d.lineStart? start = some stop) :
    Sheds unit stop (ts ++ d.comments) (d.draw c) (d.uncommented.draw c') := by
  induction d generalizing start ts c c' with
  | nil =>
      obtain rfl : start = stop := by simpa using hd
      rw [comments_nil, List.append_nil]
      exact h
  | cons p d ih =>
      obtain ⟨b, hp, hd⟩ : ∃ b, p.lineStart? start = some b ∧ lineStart? d b = some stop := by
        rwa [lineStart?_cons, Option.bind_eq_some_iff] at hd
      cases hc : p.comment? with
      | none =>
          have hdoc : uncommented (p :: d) = p :: uncommented d :=
            List.filter_cons_of_pos (by simp [hc])
          have htexts : comments (p :: d) = comments d := List.filterMap_cons_none hc
          rw [hdoc, htexts]
          exact ih (h.piece hp) hd
      | some t =>
          obtain rfl : p = .edit (.line (Text.commentLine t)) := by
            unfold Piece.comment? at hc
            split at hc
            · rw [Text.eq_commentLine hc]
            · cases hc
          obtain ⟨⟨rfl, hnl⟩, rfl⟩ :
              (start = true ∧ '\n' ∉ (Text.commentLine t).toList) ∧ true = b := by
            simpa [Piece.lineStart?, Text.comment?_commentLine] using hp
          have hdoc : uncommented (.edit (.line (Text.commentLine t)) :: d) = uncommented d :=
            List.filter_cons_of_neg (by simp [hc])
          have htexts : comments (.edit (.line (Text.commentLine t)) :: d) = t :: comments d :=
            List.filterMap_cons_some hc
          rw [hdoc, htexts, List.append_cons]
          exact ih (h.comment hnl) hd

end LuauSyntax
