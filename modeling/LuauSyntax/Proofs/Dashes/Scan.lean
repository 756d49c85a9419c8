import LuauSyntax.Proofs.Symbols.Words

namespace LuauSyntax

namespace Text

def dashStep : Option Bool → Char → Option Bool
  | none, _ => none
  | some after, c => if c = '-' then (if after then none else some true) else some false

def dashes (state : Option Bool) (cs : List Char) : Option Bool :=
  cs.foldl dashStep state

theorem dashes_append (state : Option Bool) (cs ds : List Char) :
    dashes state (cs ++ ds) = dashes (dashes state cs) ds :=
  List.foldl_append

@[simp]
theorem dashes_none (cs : List Char) : dashes none cs = none := by
  induction cs with
  | nil => rfl
  | cons c cs ih => exact ih

theorem dashes_eq_none_iff (after : Bool) (cs : List Char) : dashes (some after) cs = none ↔
    after = true ∧ cs.head? = some '-' ∨ ['-', '-'] <:+: cs := by
  induction cs generalizing after with
  | nil => simp [dashes]
  | cons c cs ih =>
      have hcons (s : Option Bool) : dashes s (c :: cs) = dashes (dashStep s c) cs := rfl
      have hfirst : ['-'] <+: cs ↔ cs.head? = some '-' := by
        cases cs <;> simp [List.cons_prefix_cons, eq_comm]
      rw [hcons, List.infix_cons_iff, List.cons_prefix_cons, hfirst]
      by_cases hc : c = '-'
      · cases after <;> simp [dashStep, hc, ih]
      · simp [dashStep, hc, Ne.symm hc, ih]

theorem dashes_of_not_mem {cs : List Char} (h : '-' ∉ cs) (after : Bool) :
    dashes (some after) cs = some (after && cs.isEmpty) := by
  induction cs generalizing after with
  | nil => simp [dashes]
  | cons c cs ih =>
      obtain ⟨hc, hcs⟩ : '-' ≠ c ∧ '-' ∉ cs := by simpa using h
      have hcons : dashes (some after) (c :: cs) = dashes (some false) cs := by
        rw [dashes, List.foldl_cons, dashStep, if_neg (Ne.symm hc)]
        rfl
      simpa [hcons] using ih hcs false

def Separates (t : String) : Prop :=
  ∀ after, dashes (some after) t.toList = some false

instance (t : String) : Decidable (Separates t) :=
  inferInstanceAs (Decidable (∀ _ : Bool, _))

end Text

open Text

namespace Canvas

def dashes (c : Canvas) : Option Bool :=
  Text.dashes (some false) c.output.toList

theorem dashes_append (c : Canvas) (t : String) :
    (c.append t).dashes = Text.dashes c.dashes t.toList := by
  rw [dashes, append, String.toList_append, Text.dashes_append]
  rfl

theorem dashes_append_of_separates {t : String} (ht : Separates t) {c : Canvas} {after : Bool}
    (h : c.dashes = some after) : (c.append t).dashes = some false := by
  rw [dashes_append, h, ht after]

theorem dashes_append_margin {c : Canvas} (hunit : '-' ∉ c.unit.toList)
    (h : c.dashes = some false) : (c.append c.margin).dashes = some false := by
  have hmargin : '-' ∉ c.margin.toList := Piece.not_mem_margin hunit c.depth
  simp [dashes_append, h, dashes_of_not_mem hmargin]

end Canvas

theorem Piece.unit_draw (p : Piece) (c : Canvas) : (p.draw c).unit = c.unit := by
  match p with
  | .edit e => cases e <;> rfl
  | .measured _ | .custom _ | .fail _ => rfl

theorem Piece.dashes_draw_of_none (p : Piece) {c : Canvas} (h : c.dashes = none) :
    (p.draw c).dashes = none := by
  match p with
  | .edit (.append _) | .edit (.indented _) | .edit (.line _) | .measured _ =>
      simp [draw, Canvas.edit, Canvas.dashes_append, h]
  | .edit .push | .edit .pop | .custom _ | .fail _ => exact h

namespace Doc

theorem unit_draw (d : Doc) (c : Canvas) : (d.draw c).unit = c.unit := by
  induction d generalizing c with
  | nil => rfl
  | cons p d ih => exact (ih (p.draw c)).trans (p.unit_draw c)

theorem dashes_draw_of_none (d : Doc) {c : Canvas} (h : c.dashes = none) :
    (d.draw c).dashes = none := by
  induction d generalizing c with
  | nil => exact h
  | cons p d ih => exact ih (p.dashes_draw_of_none h)

theorem draw_text_append (t : String) (e : Doc) (c : Canvas) :
    draw (text t ++ e) c = draw e (c.append t) := rfl

def DashesIff (d : Doc) (twice first : Prop) : Prop :=
  ∀ (c : Canvas) (after : Bool), '-' ∉ c.unit.toList → c.dashes = some after →
    ((d.draw c).dashes = none ↔ twice ∨ after = true ∧ first)

namespace DashesIff

variable {d e : Doc} {t : String} {twice twice' first first' : Prop}

theorem congr (h : d.DashesIff twice first) (htwice : twice ↔ twice') (hfirst : first ↔ first') :
    d.DashesIff twice' first' := by
  rw [← htwice, ← hfirst]
  exact h

theorem nil : DashesIff [] False False := by
  intro c after _ hc
  simp [draw, hc]

theorem append (hd : d.DashesIff twice first) (he : e.DashesIff twice' False) :
    (d ++ e).DashesIff (twice ∨ twice') first := by
  intro c after hunit hc
  have hfirst := hd c after hunit hc
  rw [draw_append]
  cases hstate : (d.draw c).dashes with
  | none =>
      have htwice := hfirst.mp hstate
      simp only [dashes_draw_of_none e hstate, true_iff]
      exact htwice.imp_left .inl
  | some b =>
      have hnot : ¬(twice ∨ after = true ∧ first) := by
        rw [← hfirst, hstate]
        simp
      rw [he _ b (by rwa [unit_draw]) hstate]
      grind

theorem text (h : '-' ∉ t.toList) : (text t).DashesIff False False := by
  intro c after _ hc
  have hdraw : (Doc.text t).draw c = c.append t := rfl
  simp [hdraw, Canvas.dashes_append, hc, dashes_of_not_mem h]

theorem lead (ht : Separates t) (he : e.DashesIff twice first) :
    (Doc.text t ++ e).DashesIff twice False := by
  intro c after hunit hc
  rw [draw_text_append]
  simpa using he (c.append t) false hunit (Canvas.dashes_append_of_separates ht hc)

theorem dash (he : e.DashesIff twice first) :
    (Doc.text "-" ++ e).DashesIff (twice ∨ first) True := by
  intro c after hunit hc
  rw [draw_text_append]
  have hstate : (c.append "-").dashes = dashStep (some after) '-' := by
    rw [Canvas.dashes_append, hc]
    rfl
  cases after with
  | true => simp [dashes_draw_of_none e hstate]
  | false => simpa using he (c.append "-") true hunit hstate

theorem of_draw_eq (h : ∀ c, d.draw c = e.draw c) (he : e.DashesIff twice first) :
    d.DashesIff twice first := by
  intro c after hunit hc
  rw [h]
  exact he c after hunit hc

theorem joined {u : String} (h : (Doc.text (t ++ u) ++ e).DashesIff twice first) :
    (Doc.text t ++ (Doc.text u ++ e)).DashesIff twice first :=
  of_draw_eq (fun c => by simp [draw_text_append, Canvas.append, String.append_assoc]) h

theorem signed {u : String} (h : '-' ∉ u.toList) : (Doc.text ("-" ++ u)).DashesIff False True :=
  of_draw_eq (fun c => by simp [Doc.text, draw, Piece.draw, Canvas.edit, Canvas.append,
    String.append_assoc]) ((text h).dash.congr (by simp) Iff.rfl)

theorem wrap (he : e.DashesIff twice first) : (wrapIf true e).DashesIff twice False := by
  have hclose := (he.append (text (t := ")") (by decide))).lead (t := "(") (by decide)
  simpa [wrapIf] using hclose

theorem wrapIf {w : Bool} (he : e.DashesIff twice first) :
    (Doc.wrapIf w e).DashesIff twice (w = false ∧ first) := by
  cases w with
  | true => simpa using he.wrap
  | false => simpa [Doc.wrapIf] using he

variable {α : Type} {f : α → Doc} {p q : α → Prop}

theorem separated {s : String} (hs : Separates s) {l : List α}
    (h : ∀ a ∈ l, (f a).DashesIff (p a) (q a)) :
    (separated s (l.map f)).DashesIff (∃ a ∈ l, p a) (∃ a ∈ l.head?, q a) := by
  induction l with
  | nil => simpa [Doc.separated] using nil
  | cons a l ih =>
      obtain ⟨ha, hl⟩ := List.forall_mem_cons.mp h
      cases l with
      | nil => simpa [Doc.separated, List.intercalate] using ha
      | cons b l =>
          have hrest := (ih hl).lead hs
          simpa [separated_cons_cons] using ha.append hrest

theorem flatten {l : List α} (h : ∀ a ∈ l, (f a).DashesIff (p a) False) :
    DashesIff (l.map f).flatten (∃ a ∈ l, p a) False := by
  induction l with
  | nil => simpa using nil
  | cons a l ih =>
      obtain ⟨ha, hl⟩ := List.forall_mem_cons.mp h
      simpa using ha.append (ih hl)

end DashesIff

def SettledIff (d : Doc) (twice : Prop) : Prop :=
  ∀ c : Canvas, '-' ∉ c.unit.toList → c.dashes = some false →
    ((d.draw c).dashes = none ↔ twice) ∧ (d.draw c).dashes ≠ some true

theorem DashesIff.closed {d : Doc} {t : String} {twice first : Prop} (h : d.DashesIff twice first)
    (ht : Separates t) : (d ++ Doc.text t).SettledIff twice := by
  intro c hunit hc
  have hd := h c false hunit hc
  have htext : ((d ++ Doc.text t).draw c).dashes = Text.dashes (d.draw c).dashes t.toList := by
    rw [draw_append]
    exact Canvas.dashes_append _ t
  rw [htext]
  cases hstate : (d.draw c).dashes with
  | none => simpa [hstate] using hd
  | some b => simpa [hstate, ht b] using hd

namespace SettledIff

variable {d e : Doc} {t : String} {twice twice' : Prop}

theorem nil : SettledIff [] False := by
  intro c _ hc
  simp [draw, hc]

theorem append (hd : d.SettledIff twice) (he : e.SettledIff twice') :
    (d ++ e).SettledIff (twice ∨ twice') := by
  intro c hunit hc
  obtain ⟨hiff, htrue⟩ := hd c hunit hc
  rw [draw_append]
  cases hstate : (d.draw c).dashes with
  | none => simp [dashes_draw_of_none e hstate, hiff.mp hstate]
  | some b =>
      cases b with
      | true => exact absurd hstate htrue
      | false =>
          have hnot : ¬twice := by simp [← hiff, hstate]
          simpa [hnot] using he (d.draw c) (by rwa [unit_draw]) hstate

theorem indented (ht : Text.dashes (some false) t.toList = some false) :
    (indented t).SettledIff False := by
  intro c hunit hc
  have hdraw : (Doc.indented t).draw c = (c.append c.margin).append t := rfl
  have hstate : ((Doc.indented t).draw c).dashes = some false := by
    rw [hdraw, Canvas.dashes_append, Canvas.dashes_append_margin hunit hc, ht]
  simp [hstate]

theorem nested (h : d.SettledIff twice) : (nested d).SettledIff twice := by
  intro c hunit hc
  have hdraw : (Doc.nested d).draw c =
      draw [.edit .pop] (d.draw { c with depth := c.depth + 1 }) :=
    draw_append d [.edit .pop] { c with depth := c.depth + 1 }
  rw [hdraw]
  exact h _ hunit hc

theorem flatMap {α : Type} {f : α → Doc} {p : α → Prop} {l : List α}
    (h : ∀ a ∈ l, (f a).SettledIff (p a)) : SettledIff (l.flatMap f) (∃ a ∈ l, p a) := by
  induction l with
  | nil => simpa using nil
  | cons a l ih =>
      obtain ⟨ha, hl⟩ := List.forall_mem_cons.mp h
      simpa using ha.append (ih hl)

theorem lead (ht : Separates t) (h : e.SettledIff twice) :
    (text t ++ e).DashesIff twice False := by
  intro c after hunit hc
  rw [draw_text_append]
  simpa using (h (c.append t) hunit (Canvas.dashes_append_of_separates ht hc)).1

end SettledIff

theorem DashesIff.table {α : Type} {f : α → Doc} {p q : α → Prop} {l : List α}
    (h : ∀ a ∈ l, (f a).DashesIff (p a) (q a)) (positional padded : Bool) :
    (table positional padded (l.map f)).DashesIff (∃ a ∈ l, p a) False := by
  unfold Doc.table
  split
  · have hnil : l = [] := by simpa using ‹(l.map f).isEmpty = true›
    simpa [hnil] using text (by decide : '-' ∉ "\x7b\x7d".toList)
  · split
    · have hopen : Separates (if padded then "\x7b " else "\x7b") := by cases padded <;> decide
      have hclose : '-' ∉ (if padded then " \x7d" else "\x7d").toList := by
        cases padded <;> decide
      have hfields := (separated (by decide : Separates ", ") h).append (text hclose)
      simpa [List.append_assoc] using hfields.lead hopen
    · have hline : ∀ a ∈ l, (margin ++ f a ++ Doc.text ",\n").SettledIff (p a) := by
        intro a ha
        have hmargin : margin.SettledIff False := .indented (by decide)
        have hfield := (h a ha).closed (by decide : Separates ",\n")
        simpa [List.append_assoc] using hmargin.append hfield
      have hclose : (indented "\x7d").SettledIff False := .indented (by decide)
      have hlines := ((SettledIff.flatMap hline).nested.append hclose).lead
        (by decide : Separates "\x7b\n")
      simpa [List.flatMap_map, List.append_assoc] using hlines

end Doc

end LuauSyntax
