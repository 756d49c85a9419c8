import LuauSyntax.Proofs.Doc.Tree
import LuauSyntax.Proofs.Layout.Lines
import Mathlib.Data.List.Forall2

namespace LuauSyntax

open Doc

def Line.Hold (reg : Registry) (least : Nat) (b : Block) (ls : List Line) : Prop :=
  ∃ k own, least ≤ k ∧ (Stmt.blockDoc reg b).Stacks own ∧ own.map (Line.deeper k) <:+: ls

variable {reg : Registry}

theorem Line.Hold.mono {least : Nat} {b : Block} {ls ms : List Line} (h : Hold reg least b ls)
    (hls : ls <:+: ms) : Hold reg least b ms := by
  obtain ⟨k, own, hk, hown, hin⟩ := h
  exact ⟨k, own, hk, hown, hin.trans hls⟩

theorem Line.Hold.deeper {least : Nat} {b : Block} {ls : List Line} (h : Hold reg least b ls) :
    Hold reg (least + 1) b (ls.map (Line.deeper 1)) := by
  obtain ⟨k, own, hk, hown, hin⟩ := h
  refine ⟨k + 1, own, by omega, hown, ?_⟩
  have hmap := hin.map (Line.deeper 1)
  rwa [List.map_map, Line.deeper_deeper] at hmap

def Doc.Inline (reg : Registry) (d : Doc) (bs : List Block) : Prop :=
  ∃ r : Run, d.Spans r ∧ r.Clean ∧ ∀ b ∈ bs, Line.Hold reg 1 b r.middle

structure Doc.Laid (reg : Registry) (least : Nat) (d : Doc) (bs : List Block)
    (ls : List Line) : Prop where
  draws : d.Stacks ls
  clean : ∀ l ∈ ls, l.Clean
  holds : ∀ b ∈ bs, Line.Hold reg least b ls

namespace Doc

theorem indented_empty : indented "" = margin := rfl

theorem Inline.nil : Inline reg [] [] :=
  ⟨.flat "", Spans.nil, by simp [Run.Clean], by simp⟩

theorem Inline.text {t : String} (h : '\n' ∉ t.toList) : Inline reg (text t) [] :=
  ⟨.flat t, Spans.text t, h, by simp⟩

theorem Inline.append {d e : Doc} {bs cs : List Block} (hd : Inline reg d bs)
    (he : Inline reg e cs) : Inline reg (d ++ e) (bs ++ cs) := by
  obtain ⟨r, hr, hrc, hrb⟩ := hd
  obtain ⟨s, hs, hsc, hsb⟩ := he
  refine ⟨r ++ s, hr.append hs, hrc.append hsc, fun b hb => ?_⟩
  rcases List.mem_append.mp hb with hb | hb
  · exact (hrb b hb).mono (r.middle_append_left s)
  · exact (hsb b hb).mono (r.middle_append_right s)

theorem Inline.concatText {d : Doc} {bs : List Block} (hd : Inline reg d bs) (t : String)
    (ht : '\n' ∉ t.toList) : Inline reg (d ++ Doc.text t) bs := by
  simpa using hd.append (.text ht)

theorem Inline.consText {d : Doc} {bs : List Block} (hd : Inline reg d bs) (t : String)
    (ht : '\n' ∉ t.toList) : Inline reg (Doc.text t ++ d) bs := by
  simpa using (Inline.text ht).append hd

theorem Inline.between {d : Doc} {bs : List Block} (hd : Inline reg d bs) (t u : String)
    (ht : '\n' ∉ t.toList) (hu : '\n' ∉ u.toList) : Inline reg (Doc.text t ++ d ++ Doc.text u) bs :=
  (hd.consText t ht).concatText u hu

theorem Inline.wrapIf {d : Doc} {bs : List Block} (hd : Inline reg d bs) (wrap : Bool) :
    Inline reg (wrapIf wrap d) bs := by
  cases wrap with
  | false => exact hd
  | true => simpa [Doc.wrapIf] using hd.between "(" ")" (by decide) (by decide)

theorem Inline.flatten_map {α : Type} {f : α → Doc} {g : α → List Block} {l : List α}
    (h : ∀ a ∈ l, Inline reg (f a) (g a)) : Inline reg (l.map f).flatten (l.flatMap g) := by
  induction l with
  | nil => exact .nil
  | cons a l ih =>
      rw [List.map_cons, List.flatten_cons, List.flatMap_cons]
      exact (h a (by simp)).append (ih fun b hb => h b (by simp [hb]))

theorem Inline.separated_forall₂ {s : String} (hs : '\n' ∉ s.toList) {ds : List Doc}
    {bss : List (List Block)} (h : List.Forall₂ (Inline reg) ds bss) :
    Inline reg (separated s ds) bss.flatten := by
  induction h with
  | nil => exact .nil
  | @cons d bs ds bss hd hrest ih =>
      cases hrest with
      | nil => simpa [Doc.separated, List.intercalate] using hd
      | cons _ _ =>
          rw [separated_cons_cons, List.flatten_cons]
          simpa using (hd.append (.text hs)).append ih

theorem Inline.separated {α : Type} {f : α → Doc} {g : α → List Block} {s : String}
    (hs : '\n' ∉ s.toList) {l : List α} (h : ∀ a ∈ l, Inline reg (f a) (g a)) :
    Inline reg (separated s (l.map f)) (l.flatMap g) := by
  rw [List.flatMap_def]
  apply Inline.separated_forall₂ hs
  rw [List.forall₂_map_left_iff, List.forall₂_map_right_iff, List.forall₂_same]
  exact h

theorem Laid.nil {least : Nat} : Laid reg least [] [] [] :=
  ⟨Stacks.nil, by simp, by simp⟩

theorem Laid.line {least : Nat} {t : String} (h : '\n' ∉ t.toList) :
    Laid reg least (line t) [] [⟨0, t⟩] :=
  ⟨Stacks.line t, by simpa [Line.Clean] using h, by simp⟩

theorem Laid.append {least : Nat} {d e : Doc} {bs cs : List Block} {ls ms : List Line}
    (hd : Laid reg least d bs ls) (he : Laid reg least e cs ms) :
    Laid reg least (d ++ e) (bs ++ cs) (ls ++ ms) := by
  refine ⟨hd.draws.append he.draws, fun l hl => ?_, fun b hb => ?_⟩
  · rcases List.mem_append.mp hl with hl | hl
    · exact hd.clean l hl
    · exact he.clean l hl
  · rcases List.mem_append.mp hb with hb | hb
    · exact (hd.holds b hb).mono (List.prefix_append ls ms).isInfix
    · exact (he.holds b hb).mono (List.suffix_append ls ms).isInfix

theorem Laid.nested {least : Nat} {d : Doc} {bs : List Block} {ls : List Line}
    (hd : Laid reg least d bs ls) :
    Laid reg (least + 1) (nested d) bs (ls.map (Line.deeper 1)) := by
  refine ⟨hd.draws.nested, fun l hl => ?_, fun b hb => (hd.holds b hb).deeper⟩
  obtain ⟨m, hm, rfl⟩ := List.mem_map.mp hl
  exact hd.clean m hm

theorem Laid.weaken {least : Nat} {d : Doc} {bs : List Block} {ls : List Line}
    (hd : Laid reg (least + 1) d bs ls) : Laid reg least d bs ls := by
  refine ⟨hd.draws, hd.clean, fun b hb => ?_⟩
  obtain ⟨k, own, hk, h⟩ := hd.holds b hb
  exact ⟨k, own, by omega, h⟩

theorem Inline.laid {d : Doc} {bs : List Block} (hd : Inline reg d bs) (first last : String)
    (hfirst : '\n' ∉ first.toList) (hlast : '\n' ∉ last.toList) :
    ∃ r : Run, Laid reg 1 (indented first ++ d ++ Doc.text (last ++ "\n")) bs r.lines := by
  obtain ⟨r, hr, hclean, hb⟩ := hd
  refine ⟨.flat first ++ r ++ .flat last, hr.stacks first last, ?_, fun b hb' => ?_⟩
  · have hf : (Run.flat first).Clean := hfirst
    have hl : (Run.flat last).Clean := hlast
    exact ((hf.append hclean).append hl).lines
  · exact (((hb b hb').mono (Run.middle_append_right _ r)).mono
      (Run.middle_append_left _ _)).mono (Run.middle_infix_lines _)

theorem Laid.inline {d : Doc} {bs : List Block} {ls : List Line} (hd : Laid reg 0 d bs ls)
    (first last : String) (hfirst : '\n' ∉ first.toList) (hlast : '\n' ∉ last.toList) :
    Inline reg (Doc.text (first ++ "\n") ++ Doc.nested d ++ indented last) bs :=
  ⟨_, hd.draws.spans first last, ⟨hfirst, hd.nested.clean, hlast⟩, hd.nested.holds⟩

theorem Laid.flatMap {least : Nat} {α : Type} {f : α → Doc} {g : α → List Block} {l : List α}
    (h : ∀ a ∈ l, ∃ ls, Laid reg least (f a) (g a) ls) :
    ∃ ls, Laid reg least (l.flatMap f) (l.flatMap g) ls := by
  induction l with
  | nil => exact ⟨[], .nil⟩
  | cons a l ih =>
      obtain ⟨ls, hls⟩ := h a (by simp)
      obtain ⟨ms, hms⟩ := ih fun b hb => h b (by simp [hb])
      rw [List.flatMap_cons, List.flatMap_cons]
      exact ⟨ls ++ ms, hls.append hms⟩

theorem Inline.table {α : Type} {f : α → Doc} {g : α → List Block} {l : List α}
    (h : ∀ a ∈ l, Inline reg (f a) (g a)) (positional padded : Bool) :
    Inline reg (table positional padded (l.map f)) (l.flatMap g) := by
  unfold Doc.table
  split
  · have hl : l = [] := by simpa using ‹(l.map f).isEmpty = true›
    subst hl
    exact .text (by decide)
  · split
    · exact (Inline.separated (by decide) h).between _ _ (by split <;> decide)
        (by split <;> decide)
    · have hfield : ∀ a ∈ l, ∃ ls,
          Laid reg 0 (margin ++ f a ++ Doc.text (",\n")) (g a) ls := by
        intro a ha
        obtain ⟨r, hr⟩ := (h a ha).laid "" "," (by decide) (by decide)
        exact ⟨r.lines, hr.weaken⟩
      obtain ⟨ls, hls⟩ := Laid.flatMap hfield
      rw [List.flatMap_map]
      exact hls.inline "\x7b" "\x7d" (by decide) (by decide)

def Framed (reg : Registry) (d : Doc) (bs : List Block) : Prop :=
  ∃ ls, Laid reg 1 d bs ls ∧ ls ≠ [] ∧
    (∀ l ∈ ls.head?, l.level = 0) ∧ ∀ l ∈ ls.getLast?, l.level = 0

theorem Framed.line {t : String} (h : '\n' ∉ t.toList) : Framed reg (line t) [] :=
  ⟨_, .line h, by simp, by simp, by simp⟩

theorem Inline.framed {d : Doc} {bs : List Block} (hd : Inline reg d bs) (first last : String)
    (hfirst : '\n' ∉ first.toList) (hlast : '\n' ∉ last.toList) :
    Framed reg (indented first ++ d ++ Doc.text (last ++ "\n")) bs := by
  obtain ⟨r, hr⟩ := hd.laid first last hfirst hlast
  refine ⟨r.lines, hr, ?_, r.level_of_mem_head?_lines, r.level_of_mem_getLast?_lines⟩
  cases r <;> simp [Run.lines]

theorem Inline.framed_newline {d : Doc} {bs : List Block} (hd : Inline reg d bs) (first : String)
    (hfirst : '\n' ∉ first.toList) : Framed reg (indented first ++ d ++ newline) bs :=
  hd.framed first "" hfirst (by decide)

theorem Framed.around {d m e : Doc} {bs cs ds : List Block} (hd : Framed reg d bs)
    (hm : ∃ ls, Laid reg 1 m cs ls) (he : Framed reg e ds) :
    Framed reg (d ++ m ++ e) (bs ++ cs ++ ds) := by
  obtain ⟨ls, hls, hne, hfirst, -⟩ := hd
  obtain ⟨ms, hms⟩ := hm
  obtain ⟨ns, hns, hne', -, hlast⟩ := he
  refine ⟨ls ++ ms ++ ns, (hls.append hms).append hns, by simp [hne], ?_, ?_⟩
  · rwa [List.append_assoc, List.head?_append_of_ne_nil _ hne]
  · rwa [List.getLast?_append_of_ne_nil _ hne']

end Doc

end LuauSyntax
