import LuauSyntax.Number.Text
import LuauSyntax.Operator
import LuauSyntax.Text.Lines
import LuauSyntax.Text.Quoted

namespace LuauSyntax

theorem BinaryOp.newline_not_mem_token (op : BinaryOp) : '\n' ∉ op.token.toList := by
  cases op <;> decide

theorem UnaryOp.newline_not_mem_token (op : UnaryOp) : '\n' ∉ op.token.toList := by
  cases op <;> decide

theorem AssignOp.newline_not_mem_token (op : AssignOp) : '\n' ∉ op.token.toList := by
  cases op <;> decide

theorem Access.newline_not_mem_token (a : Access) : '\n' ∉ a.token.toList := by
  cases a <;> decide

namespace Number

theorem isDigit_or_dot_of_mem_decimal {d : Decimal} {c : Char} (h : c ∈ d.text.toList) :
    c.isDigit = true ∨ c = '.' := by
  have hdigits (hc : c ∈ Nat.toDigits 10 d.digits) : c.isDigit = true :=
    Nat.isDigit_of_mem_toDigits (by decide) (by decide) hc
  have hzeros {k : Nat} (hc : c ∈ List.replicate k '0') : c.isDigit = true := by
    rw [List.eq_of_mem_replicate hc]
    decide
  unfold Decimal.text at h
  split at h
  · rw [String.toList_ofList, List.mem_append] at h
    exact .inl (h.elim hdigits hzeros)
  · rename_i e _
    have hpadded (hc : c ∈ List.replicate (e + 2 - (Nat.toDigits 10 d.digits).length) '0'
        ++ Nat.toDigits 10 d.digits) : c.isDigit = true :=
      (List.mem_append.mp hc).elim hzeros hdigits
    rw [String.toList_ofList, List.mem_append, List.mem_cons] at h
    rcases h with h | h | h
    · exact .inl (hpadded (List.mem_of_mem_take h))
    · exact .inr h
    · exact .inl (hpadded (List.mem_of_mem_drop h))

theorem isDigit_or_dot_of_mem_magnitudeText {x : Number} {c : Char}
    (h : c ∈ x.magnitudeText.toList) : c.isDigit = true ∨ c = '.' := by
  unfold magnitudeText at h
  split at h
  · split at h
    · rw [String.toList_ofList] at h
      exact .inl (Nat.isDigit_of_mem_toDigits (by decide) (by decide) h)
    · exact isDigit_or_dot_of_mem_decimal h
  · exact isDigit_or_dot_of_mem_decimal h

theorem isDigit_or_mem_of_mem_text {x : Number} {c : Char} (h : c ∈ x.text.toList) :
    c.isDigit = true ∨ c ∈ ".-math.huge(0 / 0)".toList := by
  have hmagnitude (hc : c ∈ x.magnitudeText.toList) :
      c.isDigit = true ∨ c ∈ ".-math.huge(0 / 0)".toList := by
    rcases isDigit_or_dot_of_mem_magnitudeText hc with hc | rfl
    · exact .inl hc
    · exact .inr (by decide)
  have hown {t : String} (ht : t.toList ⊆ ".-math.huge(0 / 0)".toList) (hc : c ∈ t.toList) :
      c.isDigit = true ∨ c ∈ ".-math.huge(0 / 0)".toList :=
    .inr (ht hc)
  unfold text at h
  split at h
  · exact hown (by decide) h
  · split at h
    · split at h
      · exact hown (by decide) h
      · exact hown (by decide) h
    · rw [String.toList_append, List.mem_append] at h
      refine h.elim (fun hc => ?_) hmagnitude
      split at hc
      · exact hown (by decide) hc
      · exact hown (by decide) hc

theorem newline_not_mem_text (x : Number) : '\n' ∉ x.text.toList := by
  intro h
  rcases isDigit_or_mem_of_mem_text h with h | h
  · simp at h
  · exact absurd h (by decide)

end Number

namespace Text

theorem mem_escapeChar {c d : Char} (h : c ∈ escapeChar d) :
    c = d ∧ c ≠ '\n' ∨ c ∈ "\\\"nrt0".toList := by
  unfold escapeChar at h
  split at h <;> simp at h ⊢ <;> grind

theorem mem_quoted {c : Char} {s : String} (h : c ∈ (quoted s).toList) :
    c ∈ s.toList ∧ c ≠ '\n' ∨ c ∈ "\\\"nrt0".toList := by
  simp only [quoted, String.toList_ofList, List.cons_append, List.mem_cons, List.mem_append,
    List.mem_flatMap, List.not_mem_nil, or_false] at h
  rcases h with rfl | ⟨d, hd, hc⟩ | rfl
  · exact .inr (by decide)
  · rcases mem_escapeChar hc with ⟨rfl, hn⟩ | hown
    · exact .inl ⟨hd, hn⟩
    · exact .inr hown
  · exact .inr (by decide)

theorem newline_not_mem_quoted (s : String) : '\n' ∉ (quoted s).toList := by
  intro h
  rcases mem_quoted h with ⟨_, h⟩ | h
  · exact h rfl
  · exact absurd h (by decide)

theorem not_mem_intercalate {c : Char} {s : String} (hs : c ∉ s.toList) {l : List String}
    (hl : ∀ t ∈ l, c ∉ t.toList) : c ∉ (s.intercalate l).toList := by
  induction l with
  | nil => simp
  | cons t l ih =>
      have ht : c ∉ t.toList := hl t (by simp)
      have hrest := ih fun u hu => hl u (by simp [hu])
      cases l with
      | nil => simpa using ht
      | cons u l =>
          rw [String.intercalate_cons_cons, String.toList_append, String.toList_append]
          simp only [List.mem_append, hs, ht, hrest, or_self, not_false_eq_true]

theorem mem_of_mem_splitLines {c : Char} {cs line : List Char} (h : line ∈ splitLines cs)
    (hc : c ∈ line) : c ∈ cs ∧ c ≠ '\n' := by
  fun_induction splitLines cs generalizing line with
  | case1 => simp at h
  | case2 cs ih =>
      rcases List.mem_cons.mp h with rfl | h
      · simp at hc
      · simpa using (ih h hc).imp_left fun h => .inr (.inr h)
  | case3 cs ih =>
      rcases List.mem_cons.mp h with rfl | h
      · simp at hc
      · simpa using (ih h hc).imp_left .inr
  | case4 d cs hcr hlf hnil ih =>
      obtain rfl := List.mem_singleton.mp h
      obtain rfl := List.mem_singleton.mp hc
      exact ⟨by simp, fun h => hlf h⟩
  | case5 d cs hcr hlf first rest hcons ih =>
      rcases List.mem_cons.mp h with rfl | h
      · rcases List.mem_cons.mp hc with rfl | hc
        · exact ⟨by simp, fun h => hlf h⟩
        · exact (ih (by simp [hcons]) hc).imp_left (List.mem_cons_of_mem _)
      · exact (ih (by simp [hcons, h]) hc).imp_left (List.mem_cons_of_mem _)

theorem mem_of_mem_lines {c : Char} {s line : String} (h : line ∈ lines s)
    (hc : c ∈ line.toList) : c ∈ s.toList ∧ c ≠ '\n' := by
  obtain ⟨cs, hcs, rfl⟩ := List.mem_map.mp h
  exact mem_of_mem_splitLines hcs (by simpa using hc)

theorem newline_not_mem_of_mem_lines {s line : String} (h : line ∈ lines s) :
    '\n' ∉ line.toList :=
  fun hc => (mem_of_mem_lines h hc).2 rfl

end Text

end LuauSyntax
