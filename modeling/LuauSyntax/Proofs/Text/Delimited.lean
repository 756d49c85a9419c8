import LuauSyntax.Printer
import LuauSyntax.Proofs.Text.Literal

namespace LuauSyntax.Text

def firstEscaped : List Char → Option (Char × List Char)
  | [] => none
  | '\\' :: 'n' :: cs => some ('\n', cs)
  | '\\' :: 'r' :: cs => some ('\r', cs)
  | '\\' :: 't' :: cs => some ('\t', cs)
  | '\\' :: '0' :: cs => some ('\x00', cs)
  | '\\' :: c :: cs => some (c, cs)
  | c :: cs => some (c, cs)

theorem firstEscaped_escapeChar (c : Char) (cs : List Char) :
    firstEscaped (escapeChar c ++ cs) = some (c, cs) := by
  unfold escapeChar
  split
  case h_7 =>
    unfold firstEscaped
    split <;> simp_all
  all_goals rfl

theorem escapeChar_append_inj {c d : Char} {cs ds : List Char}
    (h : escapeChar c ++ cs = escapeChar d ++ ds) : c = d ∧ cs = ds := by
  have hfirst := congrArg firstEscaped h
  rw [firstEscaped_escapeChar, firstEscaped_escapeChar] at hfirst
  exact Prod.mk.inj (Option.some.inj hfirst)

theorem escapeChar_append_ne_quote (c : Char) (cs ds : List Char) :
    escapeChar c ++ cs ≠ '"' :: ds := by
  unfold escapeChar
  split <;> simp_all

theorem escaped_append_inj {s t x y : List Char}
    (h : s.flatMap escapeChar ++ '"' :: x = t.flatMap escapeChar ++ '"' :: y) :
    s = t ∧ x = y := by
  induction s generalizing t with
  | nil =>
      cases t with
      | nil => exact ⟨rfl, (List.cons.inj h).2⟩
      | cons d t =>
          rw [List.flatMap_cons, List.append_assoc] at h
          exact absurd h.symm (escapeChar_append_ne_quote d _ x)
  | cons c s ih =>
      rw [List.flatMap_cons, List.append_assoc] at h
      cases t with
      | nil => exact absurd h (escapeChar_append_ne_quote c _ y)
      | cons d t =>
          rw [List.flatMap_cons, List.append_assoc] at h
          obtain ⟨rfl, hrest⟩ := escapeChar_append_inj h
          obtain ⟨rfl, hxy⟩ := ih hrest
          exact ⟨rfl, hxy⟩

def hidden : List Char := ['\n', '\r', '\t', '\x00']

theorem disjoint_escapeChar (c : Char) : (escapeChar c).Disjoint hidden := by
  unfold escapeChar
  split <;> simp_all [hidden]

theorem disjoint_escaped (s : List Char) : (s.flatMap escapeChar).Disjoint hidden := by
  intro c hc
  obtain ⟨d, -, hd⟩ := List.mem_flatMap.mp hc
  exact disjoint_escapeChar d hd

theorem toList_quoted_append (s x : String) :
    (quoted s ++ x).toList = '"' :: (s.toList.flatMap escapeChar ++ '"' :: x.toList) := by
  simp [quoted]

theorem quoted_append_inj {s t x y : String} (h : quoted s ++ x = quoted t ++ y) :
    s = t ∧ x = y := by
  have hchars := congrArg String.toList h
  rw [toList_quoted_append, toList_quoted_append] at hchars
  obtain ⟨hst, hxy⟩ := escaped_append_inj (List.cons.inj hchars).2
  exact ⟨String.toList_injective hst, String.toList_injective hxy⟩

theorem disjoint_quoted (s : String) : (quoted s).toList.Disjoint hidden := by
  have hquote : ['"'].Disjoint hidden := by simp [hidden]
  have hs := disjoint_escaped s.toList
  simp only [quoted, String.toList_ofList]
  rw [List.disjoint_append_left, List.disjoint_cons_left]
  exact ⟨⟨by simp [hidden], hs⟩, hquote⟩

theorem readLiteral_quoted_append (s x : String) :
    readLiteral (quoted s ++ x) = some (String.ofList (absorbed s.toList), x) := by
  rw [readLiteral, toList_quoted_append]
  simp [readChars_escaped]

theorem quoted_delimits (s t x y : String) (p : Printer) :
    (quoted s ++ x = quoted t ++ y ↔ s = t ∧ x = y) ∧
      (quoted s).toList.Disjoint ['\n', '\r', '\t', '\x00'] ∧
      (readLiteral (quoted s ++ x)).map Prod.snd = some x ∧
      p.printExpr (.literal (.string s)) = .ok (quoted s) ∧
      p.printType (.string s) = .ok (quoted s) := by
  refine ⟨⟨quoted_append_inj, ?_⟩, disjoint_quoted s, ?_, ?_, ?_⟩
  · rintro ⟨rfl, rfl⟩
    rfl
  · rw [readLiteral_quoted_append]
    rfl
  · exact congrArg Except.ok String.empty_append
  · exact congrArg Except.ok String.empty_append

end LuauSyntax.Text
