import LuauSyntax.Doc

namespace LuauSyntax

structure Line where
  level : Nat
  text : String
deriving DecidableEq, Repr

namespace Line

def margin (unit : String) (depth : Nat) : String :=
  String.join (List.replicate depth unit)

def draw (unit : String) (depth : Nat) (l : Line) : String :=
  margin unit (depth + l.level) ++ l.text ++ "\n"

def drawAll (unit : String) (depth : Nat) (ls : List Line) : String :=
  String.join (ls.map (draw unit depth))

def deeper (k : Nat) (l : Line) : Line :=
  { l with level := l.level + k }

def Clean (l : Line) : Prop :=
  '\n' ∉ l.text.toList

theorem drawAll_append (unit : String) (depth : Nat) (ls ms : List Line) :
    drawAll unit depth (ls ++ ms) = drawAll unit depth ls ++ drawAll unit depth ms := by
  simp [drawAll, String.join_append]

theorem drawAll_cons (unit : String) (depth : Nat) (l : Line) (ls : List Line) :
    drawAll unit depth (l :: ls) = draw unit depth l ++ drawAll unit depth ls := by
  simp [drawAll]

theorem drawAll_deeper (unit : String) (depth k : Nat) (ls : List Line) :
    drawAll unit depth (ls.map (deeper k)) = drawAll unit (depth + k) ls := by
  have h (l : Line) : draw unit depth (deeper k l) = draw unit (depth + k) l := by
    simp [draw, deeper, Nat.add_assoc, Nat.add_comm k]
  simp [drawAll, Function.comp_def, h]

theorem deeper_zero : deeper 0 = id := rfl

theorem deeper_deeper (j k : Nat) : deeper j ∘ deeper k = deeper (k + j) := by
  funext l
  simp [deeper, Nat.add_assoc]

theorem margin_empty (depth : Nat) : margin "" depth = "" := by
  induction depth with
  | zero => rfl
  | succ k ih => simpa [margin, List.replicate_succ] using ih

theorem splitOn_drawAll {unit : String} (hunit : '\n' ∉ unit.toList) {ls : List Line}
    (hls : ∀ l ∈ ls, l.Clean) :
    (drawAll unit 0 ls).toList.splitOn '\n' =
      ls.map (fun l => (margin unit l.level).toList ++ l.text.toList) ++ [[]] := by
  induction ls with
  | nil => rfl
  | cons l ls ih =>
      obtain ⟨hl, hls⟩ := List.forall_mem_cons.mp hls
      have hline : '\n' ∉ (margin unit l.level).toList ++ l.text.toList := by
        simp only [List.mem_append, not_or]
        exact ⟨by simp [margin, String.toList_join, hunit], hl⟩
      have hdraw : (drawAll unit 0 (l :: ls)).toList =
          ((margin unit l.level).toList ++ l.text.toList)
            ++ '\n' :: (drawAll unit 0 ls).toList := by
        simp [drawAll_cons, draw]
      rw [hdraw, List.splitOn_append_cons_self_of_not_mem hline, ih hls, List.map_cons,
        List.cons_append]

theorem eq_of_drawAll_eq {ls ms : List Line} (hls : ∀ l ∈ ls, l.Clean) (hms : ∀ l ∈ ms, l.Clean)
    (hflat : drawAll "" 0 ls = drawAll "" 0 ms) (hdeep : drawAll " " 0 ls = drawAll " " 0 ms) :
    ls = ms := by
  let chars (unit : String) (l : Line) := (margin unit l.level).toList ++ l.text.toList
  have hchars {unit : String} (hunit : '\n' ∉ unit.toList)
      (hdraw : drawAll unit 0 ls = drawAll unit 0 ms) :
      ls.map (chars unit) = ms.map (chars unit) := by
    have hsplit := congrArg (fun t : String => t.toList.splitOn '\n') hdraw
    simp only [splitOn_drawAll hunit hls, splitOn_drawAll hunit hms] at hsplit
    exact List.append_cancel_right hsplit
  have hpairs : ls.map (fun l => (chars "" l, chars " " l)) =
      ms.map (fun l => (chars "" l, chars " " l)) := by
    rw [← List.zip_map', ← List.zip_map', hchars (by simp) hflat, hchars (by decide) hdeep]
  refine (List.map_inj_right ?_).mp hpairs
  rintro ⟨k, t⟩ ⟨k', t'⟩ h
  have htext : t.toList = t'.toList := by simpa [chars, margin_empty] using congrArg Prod.fst h
  have hlength := congrArg (fun p => p.2.length) h
  rw [String.toList_inj.mp htext]
  simpa [chars, margin, String.toList_join, htext] using hlength
end Line

inductive Run where
  | flat (text : String)
  | broken (first : String) (middle : List Line) (last : String)

namespace Run

def text (unit : String) (depth : Nat) : Run → String
  | .flat t => t
  | .broken f m l => f ++ "\n" ++ Line.drawAll unit depth m ++ Line.margin unit depth ++ l

def append : Run → Run → Run
  | .flat t, .flat u => .flat (t ++ u)
  | .flat t, .broken f m l => .broken (t ++ f) m l
  | .broken f m l, .flat t => .broken f m (l ++ t)
  | .broken f m l, .broken f' m' l' => .broken f (m ++ ⟨0, l ++ f'⟩ :: m') l'

instance : Append Run := ⟨append⟩

def middle : Run → List Line
  | .flat _ => []
  | .broken _ m _ => m

def lines : Run → List Line
  | .flat t => [⟨0, t⟩]
  | .broken f m l => ⟨0, f⟩ :: m ++ [⟨0, l⟩]

def Clean : Run → Prop
  | .flat t => '\n' ∉ t.toList
  | .broken f m l => '\n' ∉ f.toList ∧ (∀ x ∈ m, x.Clean) ∧ '\n' ∉ l.toList

theorem text_append (unit : String) (depth : Nat) (r s : Run) :
    (r ++ s).text unit depth = r.text unit depth ++ s.text unit depth := by
  change (append r s).text unit depth = _
  cases r <;> cases s <;>
    simp [append, text, Line.drawAll_append, Line.drawAll_cons, Line.draw, String.append_assoc]

theorem drawAll_lines (unit : String) (depth : Nat) (r : Run) :
    Line.drawAll unit depth r.lines = Line.margin unit depth ++ r.text unit depth ++ "\n" := by
  cases r <;> simp [lines, text, Line.draw, Line.drawAll, String.append_assoc]

theorem Clean.append {r s : Run} (hr : r.Clean) (hs : s.Clean) : (r ++ s).Clean := by
  change (Run.append r s).Clean
  match r, s with
  | .flat _, .flat _ => simpa [Clean, Run.append] using And.intro hr hs
  | .flat _, .broken _ _ _ =>
      exact ⟨by simpa [Clean] using And.intro hr hs.1, hs.2⟩
  | .broken _ _ _, .flat _ =>
      exact ⟨hr.1, hr.2.1, by simpa [Clean] using And.intro hr.2.2 hs⟩
  | .broken _ _ _, .broken _ _ _ =>
      refine ⟨hr.1, ?_, hs.2.2⟩
      intro x hx
      rcases List.mem_append.mp hx with hx | hx
      · exact hr.2.1 x hx
      · rcases List.mem_cons.mp hx with rfl | hx
        · simpa [Line.Clean] using And.intro hr.2.2 hs.1
        · exact hs.2.1 x hx

theorem Clean.lines {r : Run} (hr : r.Clean) : ∀ l ∈ r.lines, l.Clean := by
  match r with
  | .flat _ => simpa [Run.lines, Line.Clean, Clean] using hr
  | .broken f m l =>
      intro x hx
      simp only [Run.lines, List.cons_append, List.mem_cons, List.mem_append, List.not_mem_nil,
        or_false] at hx
      rcases hx with rfl | hx | rfl
      · exact hr.1
      · exact hr.2.1 x hx
      · exact hr.2.2

theorem middle_append_left (r s : Run) : r.middle <:+: (r ++ s).middle := by
  change r.middle <:+: (append r s).middle
  match r, s with
  | .flat _, _ => exact List.nil_infix
  | .broken _ _ _, .flat _ => exact List.infix_refl _
  | .broken _ m _, .broken _ m' _ => exact (List.prefix_append m _).isInfix

theorem middle_append_right (r s : Run) : s.middle <:+: (r ++ s).middle := by
  change s.middle <:+: (append r s).middle
  match r, s with
  | _, .flat _ => exact List.nil_infix
  | .flat _, .broken _ _ _ => exact List.infix_refl _
  | .broken _ m l, .broken f' m' _ => exact ⟨m ++ [⟨0, l ++ f'⟩], [], by simp [middle, append]⟩

theorem middle_infix_lines (r : Run) : r.middle <:+: r.lines := by
  cases r with
  | flat t => simp [middle]
  | broken f m l => exact ⟨[⟨0, f⟩], [⟨0, l⟩], by simp [middle, lines]⟩

theorem level_of_mem_head?_lines (r : Run) : ∀ l ∈ r.lines.head?, l.level = 0 := by
  cases r <;> simp [lines]

theorem level_of_mem_getLast?_lines (r : Run) : ∀ l ∈ r.lines.getLast?, l.level = 0 := by
  cases r with
  | flat t => simp [lines]
  | broken f m l => rw [lines, List.getLast?_concat]; simp

end Run

theorem Canvas.append_append (c : Canvas) (s t : String) :
    (c.append s).append t = c.append (s ++ t) := by
  simp [Canvas.append, String.append_assoc]

theorem Canvas.append_empty (c : Canvas) : c.append "" = c := by
  simp [Canvas.append]

namespace Doc

def Spans (d : Doc) (r : Run) : Prop :=
  ∀ c : Canvas, d.draw c = c.append (r.text c.unit c.depth)

def Stacks (d : Doc) (ls : List Line) : Prop :=
  ∀ c : Canvas, d.draw c = c.append (Line.drawAll c.unit c.depth ls)

theorem draw_text (t : String) (c : Canvas) : (text t).draw c = c.append t := rfl

theorem draw_indented (t : String) (c : Canvas) :
    (indented t).draw c = c.append (Line.margin c.unit c.depth ++ t) :=
  c.append_append _ t

theorem Spans.nil : Spans [] (.flat "") := by
  intro c
  exact c.append_empty.symm

theorem Spans.text (t : String) : (text t).Spans (.flat t) := by
  intro c
  rfl

theorem Spans.append {d e : Doc} {r s : Run} (hd : d.Spans r) (he : e.Spans s) :
    Spans (d ++ e) (r ++ s) := by
  intro c
  rw [draw_append, hd c, he, Canvas.append_append, Run.text_append]
  rfl

theorem Stacks.nil : Stacks [] [] := by
  intro c
  exact c.append_empty.symm

theorem Stacks.line (t : String) : (line t).Stacks [⟨0, t⟩] := by
  intro c
  change ((c.append c.margin).append t).append "\n" = _
  rw [Canvas.append_append, Canvas.append_append]
  simp [Line.drawAll, Line.draw, Line.margin, Canvas.margin, String.append_assoc]

theorem Stacks.append {d e : Doc} {ls ms : List Line} (hd : d.Stacks ls) (he : e.Stacks ms) :
    Stacks (d ++ e) (ls ++ ms) := by
  intro c
  rw [draw_append, hd c, he, Canvas.append_append, Line.drawAll_append]
  rfl

theorem Stacks.nested {d : Doc} {ls : List Line} (hd : d.Stacks ls) :
    (nested d).Stacks (ls.map (Line.deeper 1)) := by
  intro c
  change draw (d ++ [.edit .pop]) { c with depth := c.depth + 1 } = _
  rw [draw_append, hd, Line.drawAll_deeper]
  rfl

theorem Spans.stacks {d : Doc} {r : Run} (hd : d.Spans r) (first last : String) :
    Stacks (indented first ++ d ++ Doc.text (last ++ "\n"))
      (.flat first ++ r ++ .flat last : Run).lines := by
  intro c
  rw [draw_append, draw_append, draw_indented, hd, draw_text, Canvas.append_append,
    Canvas.append_append, Run.drawAll_lines, Run.text_append, Run.text_append]
  simp [Run.text, Canvas.append, String.append_assoc]

theorem Stacks.spans {d : Doc} {ls : List Line} (hd : d.Stacks ls) (first last : String) :
    Spans (Doc.text (first ++ "\n") ++ Doc.nested d ++ indented last)
      (.broken first (ls.map (Line.deeper 1)) last) := by
  intro c
  rw [draw_append, draw_append, draw_text, hd.nested, draw_indented, Canvas.append_append,
    Canvas.append_append]
  simp [Run.text, Canvas.append, String.append_assoc]

end Doc

end LuauSyntax
