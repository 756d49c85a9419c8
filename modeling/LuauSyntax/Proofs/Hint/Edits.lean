import LuauSyntax.Hint
import LuauSyntax.Proofs.Node.Induction
import LuauSyntax.Proofs.Transform.Children
import Mathlib.Logic.Relation

namespace LuauSyntax

open Transform
open Relation (ReflTransGen)

namespace Node

inductive HintEdit : Node → Node → Prop
  | insert (before after : Block) (text : String) :
      HintEdit (.block (before ++ after)) (.block (before ++ .comment text :: after))
  | delete (before after : Block) (text : String) :
      HintEdit (.block (before ++ .comment text :: after)) (.block (before ++ after))
  | flip (t : Table) :
      HintEdit (.expr (.table t)) (.expr (.table { t with padded := !t.padded }))
  | child {n n' c c' : Node} {before after : List Node} (hn : n.children = before ++ c :: after)
      (hc : HintEdit c c') (hn' : n.refill (before ++ c' :: after) = some (n', [])) :
      HintEdit n n'

def stripped (n : Node) : Node :=
  Id.run (n.transform .strip)

def tidied : Node → Node
  | .block b => .block (b.filter strip.keep)
  | n => n.rebuilt strip

def isComment : Node → Bool
  | .stmt s => s.isComment
  | _ => false

def isHint : Node → Bool
  | .expr (.table t) => t.padded
  | n => n.isComment

end Node

theorem Transform.descends_strip : strip.Descends :=
  ⟨fun _ => rfl, fun _ => rfl, fun _ => rfl, fun _ => rfl⟩

theorem Transform.keep_strip : strip.keep = fun s => !s.isComment := rfl

theorem Stmt.exists_eq_comment {s : Stmt} (h : s.isComment) : ∃ text, s = .comment text := by
  cases s with
  | comment text => exact ⟨text, rfl⟩
  | _ => simp [Stmt.isComment] at h

theorem Stmt.isComment_strip (s : Stmt) :
    (Id.run (s.transform .strip)).isComment = s.isComment := by
  cases s with
  | custom n => cases n; rfl
  | _ => rfl

namespace Node

theorem isComment_stripped (n : Node) : n.stripped.isComment = n.isComment := by
  cases n with
  | stmt s => exact s.isComment_strip
  | _ => rfl

theorem tidied_of_kind_ne {n : Node} (hn : n.kind ≠ .block) : n.tidied = n.rebuilt strip := by
  cases n with
  | block b => exact absurd rfl hn
  | _ => rfl

theorem stripped_block (b : Block) :
    (Node.block b).stripped =
      tidied (.block (b.map fun s => Id.run (s.transform .strip))) := by
  simp [stripped, tidied, Node.transform, Stmt.transformBlock_eq_map, keep_strip, List.filter_map,
    Function.comp_def, Stmt.isComment_strip]

theorem exists_stripped_eq (n : Node) :
    ∃ n' : Node, n.stripped = n'.tidied ∧ n'.children = n.children.map stripped ∧
      n'.refill = n.refill := by
  by_cases hb : n.kind = .block
  · obtain ⟨b, rfl⟩ : ∃ b, n = .block b := Part.exists_node.1 hb
    refine ⟨_, stripped_block b, ?_, ?_⟩
    · simp [children, stripped, Node.transform]
    · simp [refill]
  · obtain ⟨n', hs, hc, hr⟩ := exists_transform_eq descends_strip hb fun _ _ => rfl
    have hk : n'.kind ≠ .block := by
      rwa [← kind_rebuilt, ← hs, kind_transform]
    exact ⟨n', hs.trans (tidied_of_kind_ne hk).symm, hc, hr⟩

namespace HintEdit

variable {n n' : Node}

theorem symm (h : HintEdit n n') : HintEdit n' n := by
  induction h with
  | insert before after text => exact .delete before after text
  | delete before after text => exact .insert before after text
  | flip t =>
      obtain ⟨fs, p⟩ := t
      simpa using HintEdit.flip ⟨fs, !p⟩
  | child hn hc hn' ih =>
      obtain ⟨hc', hr⟩ := children_of_refill hn'
      refine .child (by simpa using hc'.symm) ih ?_
      rw [hr, ← hn, refill_children]

theorem kind_eq (h : HintEdit n n') : n'.kind = n.kind := by
  cases h with
  | child hn hc hn' => exact kind_of_refill hn'
  | _ => rfl

theorem stripped_eq (h : HintEdit n n') : n.stripped = n'.stripped := by
  induction h with
  | insert before after text =>
      simp [stripped, Node.transform, Stmt.transformBlock_eq_map, keep_strip, Stmt.isComment]
  | delete before after text =>
      simp [stripped, Node.transform, Stmt.transformBlock_eq_map, keep_strip, Stmt.isComment]
  | flip t =>
      cases t
      rfl
  | @child n n' c c' before after hn hc hn' ih =>
      obtain ⟨hc', hr⟩ := children_of_refill hn'
      obtain ⟨m, hm, hmc, hmr⟩ := n.exists_stripped_eq
      obtain ⟨m', hm', hmc', hmr'⟩ := n'.exists_stripped_eq
      have hmm' : m = m' := by
        apply eq_of_refill_eq
        · rw [hmr, hmr', hr]
        · rw [hmc, hmc', hn, ← List.append_nil n'.children, ← hc']
          simp [ih]
      rw [hm, hm', hmm']

theorem stripped_eq_of_edits (h : ReflTransGen HintEdit n n') :
    n.stripped = n'.stripped := by
  induction h with
  | refl => rfl
  | tail _ h ih => exact ih.trans h.stripped_eq

instance : Std.Symm HintEdit :=
  ⟨fun _ _ h => h.symm⟩

end HintEdit

theorem exists_edits_child {n c c' : Node} {before after : List Node}
    (hn : n.children = before ++ c :: after) (h : ReflTransGen HintEdit c c') :
    ∃ n', n'.children = before ++ c' :: after ∧ n'.refill = n.refill ∧
      ReflTransGen HintEdit n n' := by
  induction h with
  | refl => exact ⟨n, hn, rfl, .refl⟩
  | @tail d d' _ hedit ih =>
      obtain ⟨m, hc, hr, hm⟩ := ih
      have hk : m.children.map kind = (before ++ d' :: after).map kind := by
        simp [hc, hedit.kind_eq]
      obtain ⟨n', hn'⟩ := exists_refill hk
      obtain ⟨hc', hr'⟩ := children_of_refill hn'
      exact ⟨n', by simpa using hc'.symm, hr'.trans hr, hm.tail (.child hc hedit hn')⟩

theorem edits_of_children {n n' : Node} (before : List Node) {cs cs' : List Node}
    (h : List.Forall₂ (ReflTransGen HintEdit) cs cs') (hn : n.children = before ++ cs)
    (hn' : n'.children = before ++ cs') (hr : n'.refill = n.refill) :
    ReflTransGen HintEdit n n' := by
  induction h generalizing before n with
  | nil =>
      rw [eq_of_refill_eq hr.symm (hn.trans hn'.symm)]
  | @cons c c' cs cs' hc _ ih =>
      obtain ⟨m, hmc, hmr, hm⟩ := exists_edits_child hn hc
      exact hm.trans (ih (before ++ [c']) (by simpa using hmc) (by simpa using hn')
        (hr.trans hmr.symm))

theorem edits_filter (before b : Block) :
    ReflTransGen HintEdit (.block (before ++ b)) (.block (before ++ b.filter strip.keep)) := by
  induction b generalizing before with
  | nil => exact .refl
  | cons s b ih =>
      by_cases hs : s.isComment
      · obtain ⟨text, rfl⟩ := Stmt.exists_eq_comment hs
        exact .head (.delete before b text) (ih before)
      · simpa [keep_strip, hs] using ih (before ++ [s])

theorem edits_tidied (n : Node) : ReflTransGen HintEdit n n.tidied := by
  cases n with
  | block b => exact edits_filter [] b
  | expr e =>
      cases e with
      | table t =>
          obtain ⟨fs, p⟩ := t
          cases p with
          | false => exact .refl
          | true => exact .single (.flip ⟨fs, true⟩)
      | _ => exact .refl
  | _ => exact .refl

theorem edits_stripped (n : Node) : ReflTransGen HintEdit n n.stripped := by
  induction n using inductionOn with
  | step n ih =>
      obtain ⟨n', hs, hc, hr⟩ := n.exists_stripped_eq
      have hchildren : List.Forall₂ (ReflTransGen HintEdit) n.children n'.children := by
        rw [hc, List.forall₂_map_right_iff, List.forall₂_same]
        exact ih
      rw [hs]
      exact (edits_of_children [] hchildren rfl rfl hr).trans n'.edits_tidied

theorem stripped_eq_iff {n n' : Node} :
    n.stripped = n'.stripped ↔ ReflTransGen HintEdit n n' := by
  constructor
  · intro h
    have hback : ReflTransGen HintEdit n'.stripped n' :=
      ReflTransGen.stdSymm.symm _ _ n'.edits_stripped
    exact n.edits_stripped.trans (h ▸ hback)
  · exact HintEdit.stripped_eq_of_edits

theorem kind_of_stmt_mem_children {n : Node} {s : Stmt} (h : .stmt s ∈ n.children) :
    n.kind = .block := by
  cases n with
  | block b => rfl
  | expr e => cases e <;> simp [children, Expr.children, ofExprs] at h
  | stmt s => cases s <;> simp [children, Stmt.children, ofExprs, ofAnnotations, ofGenerics] at h
  | type t => cases t <;> simp [children, Ty.children, ofTypes, ofType?, ofGenerics] at h
  | args as | generics as => simp [children, ofExprs] at h
  | parameter p => simp [children] at h
  | _ x =>
      cases x <;>
        simp [children, Segment.children, TableField.children, FunctionBody.children,
          Call.children, CallHead.children, Suffix.children, GenericParam.children,
          TypeField.children, TypeArg.children, ElseIf.children, ElseIfExpr.children,
          ofAnnotations, ofGenerics, ofType?] at h

theorem mem_children_tidied {n c : Node} (h : c ∈ n.tidied.children) :
    c ∈ n.children ∧ c.isComment = false := by
  by_cases hb : n.kind = .block
  · obtain ⟨b, rfl⟩ : ∃ b, n = .block b := Part.exists_node.1 hb
    obtain ⟨s, hs, rfl⟩ : ∃ s ∈ b.filter strip.keep, Node.stmt s = c := by
      simpa [tidied, children] using h
    rw [List.mem_filter, keep_strip] at hs
    exact ⟨List.mem_map_of_mem hs.1, by simpa [isComment] using hs.2⟩
  · have hc : n.tidied.children = n.children := by
      rw [tidied_of_kind_ne hb]
      cases n with
      | expr e => cases e <;> rfl
      | _ => rfl
    rw [hc] at h
    refine ⟨h, ?_⟩
    cases c with
    | stmt s => exact absurd (kind_of_stmt_mem_children h) hb
    | _ => rfl

theorem isHint_tidied (n : Node) : n.tidied.isHint = n.tidied.isComment := by
  cases n with
  | expr e => cases e <;> rfl
  | _ => rfl

theorem isHint_of_mem_stripped {n : Node} (hn : n.isComment = false) :
    ∀ m ∈ n.stripped.preorder, m.isHint = false := by
  induction n using inductionOn with
  | step n ih =>
      obtain ⟨n', hs, hc, hr⟩ := n.exists_stripped_eq
      rw [forall_mem_preorder]
      constructor
      · rwa [hs, isHint_tidied, ← hs, isComment_stripped]
      · intro c hmem
        rw [hs] at hmem
        obtain ⟨hmem, hcomment⟩ := mem_children_tidied hmem
        rw [hc, List.mem_map] at hmem
        obtain ⟨d, hd, rfl⟩ := hmem
        exact ih d hd (by rwa [← isComment_stripped])

end Node

namespace Chunk

def HintEdit (c c' : Chunk) : Prop :=
  Node.HintEdit (.chunk c) (.chunk c')

theorem exists_of_edit {c : Chunk} {n : Node} (h : Node.HintEdit (.chunk c) n) :
    ∃ c', n = .chunk c' ∧ HintEdit c c' := by
  have hk : n.kind = .chunk := h.kind_eq
  cases n with
  | chunk c' => exact ⟨c', rfl, h⟩
  | _ => simp [Node.kind] at hk

theorem exists_of_edits {c : Chunk} {n : Node} (h : ReflTransGen Node.HintEdit (.chunk c) n) :
    ∃ c', n = .chunk c' ∧ ReflTransGen HintEdit c c' := by
  induction h with
  | refl => exact ⟨c, rfl, .refl⟩
  | tail _ hedit ih =>
      obtain ⟨d, rfl, hd⟩ := ih
      obtain ⟨c', rfl, hc'⟩ := exists_of_edit hedit
      exact ⟨c', rfl, hd.tail hc'⟩

theorem edits_iff {c c' : Chunk} :
    ReflTransGen HintEdit c c' ↔ ReflTransGen Node.HintEdit (.chunk c) (.chunk c') := by
  constructor
  · intro h
    exact h.lift Node.chunk fun _ _ => id
  · intro h
    obtain ⟨d, hd, h⟩ := exists_of_edits h
    cases hd
    exact h

theorem stripped_chunk (c : Chunk) :
    (Node.chunk c).stripped = .chunk (Id.run (c.transform .strip)) :=
  rfl

theorem strip_canonical (c : Chunk) :
    (∀ c' : Chunk, Id.run (c.transform .strip) = Id.run (c'.transform .strip) ↔
        ReflTransGen HintEdit c c') ∧
      Id.run ((Id.run (c.transform .strip)).transform .strip) = Id.run (c.transform .strip) ∧
      ∀ n ∈ (Node.chunk (Id.run (c.transform .strip))).preorder,
        (∀ text, n ≠ .stmt (.comment text)) ∧ ∀ t, n = .expr (.table t) → t.padded = false := by
  refine ⟨?_, ?_, ?_⟩
  · intro c'
    rw [edits_iff, ← Node.stripped_eq_iff, stripped_chunk, stripped_chunk, Node.chunk.injEq]
  · have h := Node.stripped_eq_iff.2 (Node.chunk c).edits_stripped
    rw [stripped_chunk, stripped_chunk, Node.chunk.injEq] at h
    exact h.symm
  · intro n hn
    have hhint := Node.isHint_of_mem_stripped (n := .chunk c) rfl n hn
    constructor
    · rintro text rfl
      simp [Node.isHint, Node.isComment, Stmt.isComment] at hhint
    · rintro t rfl
      exact hhint

end Chunk

end LuauSyntax
