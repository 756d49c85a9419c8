import LuauSyntax.Proofs.Dashes.Scan
import LuauSyntax.Proofs.Symbols.Tree

namespace LuauSyntax

open Doc Text

namespace Expr

def asserted : Expr → Expr
  | .assertion e _ => e.asserted
  | e => e

def isSigned : Expr → Bool
  | .literal (.number x) => x.isNegative && !x.isNaN
  | _ => false

def startsWithDash : Expr → Bool
  | .literal v => isSigned (.literal v)
  | .unary op _ => op = .minus
  | .binary l op _ => !l.isWrappedUnder op .left && l.startsWithDash
  | .assertion e _ => !e.isWrappedInAssertion && e.startsWithDash
  | _ => false

theorem isSigned_asserted_of_wrapped {e : Expr} (h : e.isWrappedInAssertion = true) :
    e.asserted.isSigned = false := by
  cases e <;> first | rfl | simp [isWrappedInAssertion] at h

theorem startsWithDash_of_not_wrapped (e : Expr) (h : e.isWrappedInAssertion = false) :
    e.startsWithDash = e.asserted.isSigned := by
  match e with
  | .assertion e t =>
      cases he : e.isWrappedInAssertion with
      | true => simp [startsWithDash, asserted, he, isSigned_asserted_of_wrapped he]
      | false => simpa [startsWithDash, asserted, he] using startsWithDash_of_not_wrapped e he
  | .literal v => rfl
  | .symbol _ | .varArgs | .function _ | .table _ | .interpolated _ | .index _ _ | .paren _
  | .custom _ => rfl
  | .call _ | .binary _ _ _ | .unary _ _ | .ifElse _ _ _ _ => simp [isWrappedInAssertion] at h

end Expr

namespace Node

def isFunction : Node → Bool
  | .expr (.function _) => true
  | _ => false

def opensComment : Node → Bool
  | .expr (.unary .minus (.assertion e _)) => e.asserted.isSigned
  | _ => false

theorem opensComment_minus (e : Expr) : (Node.expr (.unary .minus e)).opensComment =
    (!e.isWrappedAfter .minus && e.startsWithDash) := by
  cases e with
  | assertion e t =>
      exact (Expr.startsWithDash_of_not_wrapped (.assertion e t) rfl).symm
  | literal v =>
      cases v with
      | number x =>
          cases h : x.isNegative <;>
            simp [opensComment, Expr.isWrappedAfter, Expr.startsWithDash, Expr.isSigned, h]
      | _ => rfl
  | unary op e => simp [opensComment, Expr.isWrappedAfter, Expr.startsWithDash]
  | _ => rfl

def startsWithDash : Node → Bool
  | .expr e => e.startsWithDash
  | .tableField (.positional v) => v.startsWithDash
  | _ => false

def Undashed (n : Node) : Prop :=
  ∀ m ∈ n.preorder, m.isFunction = false ∧ m.isCustom = false ∧ ∀ t ∈ m.strings, '-' ∉ t.toList

instance : DecidablePred Undashed := fun n =>
  inferInstanceAs (Decidable (∀ m ∈ n.preorder, _))

def isInline : Node → Bool
  | .expr _ | .elseIfExpr _ | .segment _ | .tableField _ | .call _ | .args _ | .callHead _
  | .suffix _ | .type _ | .typeField _ | .typeArg _ => true
  | _ => false

namespace Undashed

variable {m n : Node}

theorem not_function (h : n.Undashed) : n.isFunction = false :=
  (forall_mem_preorder.mp h).1.1

theorem not_custom (h : n.Undashed) : n.isCustom = false :=
  (forall_mem_preorder.mp h).1.2.1

theorem strings (h : n.Undashed) : ∀ t ∈ n.strings, '-' ∉ t.toList :=
  (forall_mem_preorder.mp h).1.2.2

theorem child (h : n.Undashed) (hm : m ∈ n.children) : m.Undashed :=
  (forall_mem_preorder.mp h).2 m hm

theorem clear (h : n.Undashed) : n.Clear '-' :=
  fun m hm => ⟨(h m hm).2.1, fun _ => (h m hm).2.2⟩

end Undashed

end Node

namespace Doc.DashesIff

theorem number (x : Number) :
    (Doc.text x.text).DashesIff False ((x.isNegative && !x.isNaN) = true) := by
  have hmagnitude : '-' ∉ x.magnitudeText.toList := by
    intro h
    rcases Number.isDigit_or_dot_of_mem_magnitudeText h with h | h <;> simp at h
  have hhuge : "-math.huge" = "-" ++ "math.huge" := by decide
  by_cases hnan : x.isNaN = true
  · rw [Number.text, if_pos hnan]
    exact (text (by decide)).congr Iff.rfl (by simp [hnan])
  rw [Number.text, if_neg hnan]
  by_cases hsign : x.isNegative = true
  · rw [if_pos hsign, if_pos hsign]
    split
    · rw [hhuge]
      exact (signed (by decide)).congr Iff.rfl (by simp [hsign, hnan])
    · exact (signed hmagnitude).congr Iff.rfl (by simp [hsign, hnan])
  · rw [if_neg hsign, if_neg hsign, String.empty_append]
    split
    · exact (text (by decide)).congr Iff.rfl (by simp [hsign])
    · exact (text hmagnitude).congr Iff.rfl (by simp [hsign])

theorem quoted {s : String} (h : '-' ∉ s.toList) :
    (Doc.text (Text.quoted s)).DashesIff False False := by
  refine text fun hc => ?_
  rcases mem_quoted hc with ⟨hc, -⟩ | hc
  · exact h hc
  · exact absurd hc (by decide)

theorem boolean (b : Bool) : (Doc.boolean b).DashesIff False False := by
  cases b <;> exact text (by decide)

theorem access (a : Option Access) : (Doc.access a).DashesIff False False := by
  match a with
  | none => exact nil
  | some .read | some .write =>
      exact ((text (by decide)).append (text (by decide))).congr (by simp) Iff.rfl

end Doc.DashesIff

theorem BinaryOp.separates_token (op : BinaryOp) : Separates (" " ++ op.token ++ " ") := by
  cases op <;> decide

variable {reg : Registry} {bad : Node → Prop}

open scoped Node.Unfolding

attribute [local simp] Node.startsWithDash Node.opensComment

theorem dashesIff_literal {v : Literal} (hn : (Node.expr (.literal v)).Undashed) :
    v.doc.DashesIff False (Expr.isSigned (.literal v) = true) := by
  cases v with
  | nil =>
      simpa [Literal.doc, Expr.isSigned] using DashesIff.text (by decide : '-' ∉ "nil".toList)
  | boolean b => simpa [Literal.doc, Expr.isSigned] using DashesIff.boolean b
  | number x => exact DashesIff.number x
  | string s =>
      have hs : '-' ∉ s.toList := hn.strings s (by simp [Node.strings])
      simpa [Literal.doc, Expr.isSigned] using DashesIff.quoted hs

theorem dashesIff_unary {op : UnaryOp} {e : Expr}
    (h : (e.doc reg).DashesIff (bad (.expr e)) (e.startsWithDash = true)) :
    ((Expr.unary op e).doc reg).DashesIff
      ((Node.expr (.unary op e)).opensComment = true ∨ bad (.expr e)) (op = .minus) := by
  have he := h.wrapIf (w := e.isWrappedAfter op)
  cases op with
  | minus =>
      have htwice : (Node.expr (.unary .minus e)).opensComment = true ∨ bad (.expr e) ↔
          bad (.expr e) ∨ e.isWrappedAfter .minus = false ∧ e.startsWithDash = true := by
        rw [Node.opensComment_minus, Bool.and_eq_true, Bool.not_eq_true', or_comm]
      rw [htwice]
      simpa [Expr.doc, UnaryOp.token] using he.dash
  | not => simpa [Expr.doc, UnaryOp.token] using he.lead (by decide : Separates "not ")
  | length => simpa [Expr.doc, UnaryOp.token] using he.lead (by decide : Separates "#")

theorem dashesIff_expr {e : Expr} (hn : (Node.expr e).Undashed)
    (h : ∀ p ∈ e.children, (p.doc reg).DashesIff (bad p) (p.startsWithDash = true)) :
    (e.doc reg).DashesIff ((Node.expr e).opensComment = true ∨ ∃ p ∈ e.children, bad p)
      (e.startsWithDash = true) := by
  cases e with
  | literal v => simpa [Expr.doc, Expr.startsWithDash] using dashesIff_literal hn
  | symbol n =>
      have hs : '-' ∉ n.toList := hn.strings n (by simp [Node.strings])
      simpa [Expr.doc, Expr.startsWithDash] using DashesIff.text hs
  | varArgs =>
      simpa [Expr.doc, Expr.startsWithDash] using DashesIff.text (by decide : '-' ∉ "...".toList)
  | binary l op r =>
      have hl := (h (.expr l) (by simp)).wrapIf (w := l.isWrappedUnder op .left)
      have hr := (h (.expr r) (by simp)).wrapIf (w := r.isWrappedUnder op .right)
      simpa [Expr.doc, Expr.startsWithDash]
        using hl.append (hr.lead op.separates_token).joined.joined
  | unary op e =>
      simpa [Expr.startsWithDash] using dashesIff_unary (h (.expr e) (by simp))
  | call c => simpa [Expr.doc, Expr.startsWithDash] using h (.call c) (by simp)
  | function b => exact absurd hn.not_function (by simp [Node.isFunction])
  | custom n => exact absurd hn.not_custom (by simp)
  | table t =>
      obtain ⟨fs, padded⟩ := t
      have hfields : ∀ f ∈ fs, (f.doc reg).DashesIff (bad (.tableField f))
          ((Node.tableField f).startsWithDash = true) :=
        fun f hf => h (.tableField f) (by simp [hf])
      simpa [Expr.doc, Expr.startsWithDash] using DashesIff.table hfields _ padded
  | interpolated ss =>
      have hsegments : ∀ s ∈ ss, (s.doc reg).DashesIff (bad (.segment s)) False :=
        fun s hs => by simpa using h (.segment s) (by simp [hs])
      have hclose : (text "`").DashesIff False False := .text (by decide)
      simpa [Expr.doc, Expr.startsWithDash] using
        ((DashesIff.flatten hsegments).append hclose).lead (by decide : Separates "`")
  | assertion e t =>
      have he := (h (.expr e) (by simp)).wrapIf (w := e.isWrappedInAssertion)
      have ht := (h (.type t) (by simp)).lead (by decide : Separates " :: ")
      simpa [Expr.doc, Expr.startsWithDash] using he.append ht
  | ifElse c t bs e =>
      have hbranches : ∀ b ∈ bs, (b.doc reg).DashesIff (bad (.elseIfExpr b)) False :=
        fun b hb => by simpa using h (.elseIfExpr b) (by simp [hb])
      have he := (h (.expr e) (by simp)).lead (by decide : Separates " else ")
      have ht := ((h (.expr t) (by simp)).append
        ((DashesIff.flatten hbranches).append he)).lead (by decide : Separates " then ")
      have hc := ((h (.expr c) (by simp)).append ht).lead (by decide : Separates "if ")
      simpa [Expr.doc, Expr.startsWithDash, or_and_right, exists_or] using hc
  | index t k =>
      have hk := ((h (.expr k) (by simp)).append
        (.text (by decide : '-' ∉ "]".toList))).lead (by decide : Separates "[")
      -- What can be indexed as it stands begins with a name or a parenthesis.
      have ht : t.isIndexable = true → t.startsWithDash = false := by
        cases t <;> simp [Expr.isIndexable, Expr.startsWithDash]
      have htarget := (h (.expr t) (by simp)).wrapIf (w := !t.isIndexable)
      have hfirst : ((!t.isIndexable) = false ∧ t.startsWithDash = true) ↔ False := by
        simpa using ht
      simpa [Expr.doc, Expr.startsWithDash] using (htarget.append hk).congr Iff.rfl hfirst
  | paren e =>
      simpa [Expr.doc, Expr.startsWithDash, wrapIf] using (h (.expr e) (by simp)).wrap

theorem dashesIff_call {c : Call}
    (h : ∀ p ∈ c.children, (p.doc reg).DashesIff (bad p) (p.startsWithDash = true)) :
    (c.doc reg).DashesIff (∃ p ∈ c.children, bad p) False := by
  obtain ⟨head, ss⟩ := c
  have hsuffixes : ∀ s ∈ ss, (s.doc reg).DashesIff (bad (.suffix s)) False :=
    fun s hs => by simpa using h (.suffix s) (by simp [hs])
  have hhead := h (.callHead head) (by simp)
  simpa [Call.doc] using hhead.append (DashesIff.flatten hsuffixes)

theorem dashesIff_genericName {n : GenericName} (h : '-' ∉ n.word.toList) :
    n.doc.DashesIff False False := by
  cases n with
  | single n => exact .text h
  | pack n =>
      simpa [GenericName.doc, GenericName.word] using
        DashesIff.append (.text h) (.text (by decide : '-' ∉ "...".toList))

theorem dashesIff_namesDoc {gs : Option Generics}
    (h : ∀ g ∈ gs, ∀ p ∈ g, '-' ∉ p.name.word.toList) :
    (Generics.namesDoc gs).DashesIff False False := by
  match gs with
  | none | some [] => exact .nil
  | some (g :: gs) =>
      have hnames : ∀ p ∈ g :: gs, p.name.doc.DashesIff False False :=
        fun p hp => dashesIff_genericName (h _ rfl p hp)
      have hlist := (DashesIff.separated (by decide : Separates ", ") hnames).append
        (.text (by decide : '-' ∉ ">".toList))
      simpa [Generics.namesDoc] using hlist.lead (by decide : Separates "<")

theorem dashesIff_type {t : Ty} (hn : (Node.type t).Undashed)
    (h : ∀ p ∈ (Node.type t).parts, (p.doc reg).DashesIff (bad p) (p.startsWithDash = true)) :
    (t.doc reg).DashesIff (∃ p ∈ (Node.type t).parts, bad p) False := by
  have htypes (ts : List Ty) (hts : ts.map .type ⊆ (Node.type t).parts) :
      ∀ u ∈ ts, (u.doc reg).DashesIff (bad (.type u)) False :=
    fun u hu => by simpa using h (.type u) (hts (List.mem_map_of_mem hu))
  cases t with
  | basic n =>
      have hs : '-' ∉ n.toList := hn.strings n (by simp [Node.strings])
      simpa [Ty.doc] using DashesIff.text hs
  | boolean b => simpa [Ty.doc] using DashesIff.boolean b
  | string s =>
      have hs : '-' ∉ s.toList := hn.strings s (by simp [Node.strings])
      simpa [Ty.doc] using DashesIff.quoted hs
  | array t a =>
      have ht := (h (.type t) (by simp)).append (.text (by decide : '-' ∉ " \x7d".toList))
      simpa [Ty.doc] using ((DashesIff.access a).append (ht.congr Iff.rfl (by simp))).lead
        (by decide : Separates "\x7b ")
  | table fs =>
      have hfields : ∀ f ∈ fs, (f.doc reg).DashesIff (bad (.typeField f)) False :=
        fun f hf => by simpa using h (.typeField f) (by simp [hf])
      cases fs with
      | nil => simpa [Ty.doc] using DashesIff.text (by decide : '-' ∉ "\x7b\x7d".toList)
      | cons f fs =>
          have hlist := (DashesIff.separated (by decide : Separates ", ") hfields).append
            (.text (by decide : '-' ∉ " \x7d".toList))
          simpa [Ty.doc] using hlist.lead (by decide : Separates "\x7b ")
  | tuple ts r =>
      -- The elements and the tail are one list, where the tail comes after its dots.
      have hdocs : ts.map (Ty.doc reg) ++ Ty.restDoc reg r =
          (ts.map Sum.inl ++ r.toList.map Sum.inr).map
            (Sum.elim (Ty.doc reg) fun t : Ty => text "..." ++ t.doc reg) := by
        cases r <;> simp [Ty.restDoc]
      have hmembers : ∀ m ∈ ts.map Sum.inl ++ r.toList.map Sum.inr,
          DashesIff (m.elim (Ty.doc reg) fun t : Ty => text "..." ++ t.doc reg)
            (m.elim (bad ∘ .type) (bad ∘ .type)) False := by
        intro m hm
        cases m with
        | inl t => exact htypes ts (by simp) t (by simpa using hm)
        | inr t =>
            have htail := htypes r.toList (by simp [Node.ofType?]) t (by simpa using hm)
            exact htail.lead (by decide : Separates "...")
      have hlist := (DashesIff.separated (by decide : Separates ", ") hmembers).append
        (.text (by decide : '-' ∉ ")".toList))
      rw [Ty.doc, Ty.docs_eq_map, hdocs, List.append_assoc]
      refine (hlist.lead (by decide : Separates "(")).congr ?_ Iff.rfl
      simp [Node.ofType?, or_and_right, exists_or]
  | union ts =>
      have hts : ∀ t ∈ ts,
          (wrapIf t.isWrappedInUnion (t.doc reg)).DashesIff (bad (.type t)) False :=
        fun t ht => by simpa using (htypes ts (by simp) t ht).wrapIf (w := t.isWrappedInUnion)
      simpa [Ty.doc] using DashesIff.separated (by decide : Separates " | ") hts
  | inter ts =>
      have hts : ∀ t ∈ ts,
          (wrapIf t.isWrappedInInter (t.doc reg)).DashesIff (bad (.type t)) False :=
        fun t ht => by simpa using (htypes ts (by simp) t ht).wrapIf (w := t.isWrappedInInter)
      simpa [Ty.doc] using DashesIff.separated (by decide : Separates " & ") hts
  | optional t =>
      have ht := (h (.type t) (by simp)).wrapIf (w := t.isWrappedInOptional)
      simpa [Ty.doc] using ht.append (.text (by decide : '-' ∉ "?".toList))
  | callback gs as t =>
      have hnames : (Generics.namesDoc gs).DashesIff False False :=
        dashesIff_namesDoc (hn.clear.genericNames (by simp))
      have hargs : ∀ a ∈ as, (a.doc reg).DashesIff (bad (.typeArg a)) False :=
        fun a ha => by simpa using h (.typeArg a) (by simp [ha])
      have ht := (h (.type t) (by simp)).lead (by decide : Separates ") -> ")
      have hlist := ((DashesIff.separated (by decide : Separates ", ") hargs).append ht).lead
        (by decide : Separates "(")
      simpa [Ty.doc, or_and_right, exists_or] using hnames.append hlist
  | typeof e =>
      have he := (h (.expr e) (by simp)).append (.text (by decide : '-' ∉ ")".toList))
      simpa [Ty.doc] using he.lead (by decide : Separates "typeof(")
  | variadic t => simpa [Ty.doc] using (h (.type t) (by simp)).lead (by decide : Separates "...")
  | generic b ts =>
      have hb : '-' ∉ b.toList := hn.strings b (by simp [Node.strings])
      have hts := htypes ts (by simp)
      have hlist := ((DashesIff.separated (by decide : Separates ", ") hts).append
        (.text (by decide : '-' ∉ ">".toList))).lead (by decide : Separates "<")
      simpa [Ty.doc] using (DashesIff.text hb).append hlist

theorem Node.dashesIff_of_parts {n : Node} (hinline : n.isInline = true) (hn : n.Undashed)
    (h : ∀ p ∈ n.parts, (p.doc reg).DashesIff (bad p) (p.startsWithDash = true)) :
    (n.doc reg).DashesIff (n.opensComment = true ∨ ∃ p ∈ n.parts, bad p)
      (n.startsWithDash = true) := by
  have hname {t : String} (ht : t ∈ n.strings) : (Doc.text t).DashesIff False False :=
    .text (hn.strings t ht)
  cases n with
  | expr e => exact dashesIff_expr hn h
  | type t => simpa using dashesIff_type hn h
  | call c => simpa using dashesIff_call h
  | elseIfExpr b =>
      obtain ⟨c, v⟩ := b
      have hv := (h (.expr v) (by simp)).lead (by decide : Separates " then ")
      simpa [ElseIfExpr.doc] using
        ((h (.expr c) (by simp)).append hv).lead (by decide : Separates " elseif ")
  | segment s =>
      cases s with
      | text t => simpa [Segment.doc] using hname (t := t) (by simp [strings])
      | expr e =>
          have he := (h (.expr e) (by simp)).append (.text (by decide : '-' ∉ "\x7d".toList))
          simpa [Segment.doc] using he.lead (by decide : Separates "$\x7b")
  | tableField f =>
      cases f with
      | positional v => simpa [TableField.doc] using h (.expr v) (by simp)
      | named k v =>
          have hv := (h (.expr v) (by simp)).lead (by decide : Separates " = ")
          simpa [TableField.doc] using (hname (t := k) (by simp [strings])).append hv
      | keyed k v =>
          have hv := (h (.expr v) (by simp)).lead (by decide : Separates "] = ")
          simpa [TableField.doc] using
            ((h (.expr k) (by simp)).append hv).lead (by decide : Separates "[")
  | args as =>
      have has : ∀ a ∈ as, (a.doc reg).DashesIff (bad (.expr a)) (a.startsWithDash = true) :=
        fun a ha => h (.expr a) (by simp [ha])
      have hlist := (DashesIff.separated (by decide : Separates ", ") has).append
        (.text (by decide : '-' ∉ ")".toList))
      simpa using hlist.lead (by decide : Separates "(")
  | callHead head =>
      cases head with
      | name n => simpa [CallHead.doc] using hname (t := n) (by simp [strings])
      | expr e => simpa [CallHead.doc, wrapIf] using (h (.expr e) (by simp)).wrap
  | suffix s =>
      cases s with
      | call as => simpa [Suffix.doc] using h (.args as) (by simp)
      | method n as =>
          have hn := hname (t := n) (by simp [strings])
          have has : ((args as).doc reg).DashesIff (bad (.args as)) False := by
            simpa using h (.args as) (by simp)
          simpa [Suffix.doc] using (hn.append has).lead (by decide : Separates ":")
      | dot n =>
          have hn := hname (t := n) (by simp [strings])
          simpa [Suffix.doc] using hn.lead (by decide : Separates ".")
      | brackets k =>
          have hk := (h (.expr k) (by simp)).append (.text (by decide : '-' ∉ "]".toList))
          simpa [Suffix.doc] using hk.lead (by decide : Separates "[")
  | typeField f =>
      cases f with
      | named a k v =>
          have hv := (h (.type v) (by simp)).lead (by decide : Separates ": ")
          have hk := hname (t := k) (by simp [strings])
          simpa [TypeField.doc] using (DashesIff.access a).append (hk.append hv)
      | indexed a k v =>
          have hv := ((h (.type v) (by simp)).lead (by decide : Separates ": ")).lead
            (by decide : Separates "]")
          have hk := ((h (.type k) (by simp)).append hv).lead (by decide : Separates "[")
          simpa [TypeField.doc] using (DashesIff.access a).append hk
  | typeArg a =>
      obtain ⟨name, t⟩ := a
      cases name with
      | none => simpa [TypeArg.doc] using h (.type t) (by simp)
      | some n =>
          have ht := (h (.type t) (by simp)).lead (by decide : Separates ": ")
          simpa [TypeArg.doc] using (hname (t := n) (by simp [strings])).append ht
  | _ => simp [isInline] at hinline

namespace Node

theorem isInline_of_mem_parts {n : Node} (hinline : n.isInline = true)
    (hn : n.isFunction = false) (hcustom : n.isCustom = false) :
    ∀ p ∈ n.parts, p.isInline = true := by
  cases n with
  | expr e =>
      cases e with
      | function b => simp [isFunction] at hn
      | custom c => simp at hcustom
      | _ => simp [isInline, or_imp, forall_and]
  | type t => cases t <;> simp [isInline, ofType?, or_imp, forall_and]
  | segment s => cases s <;> simp [isInline]
  | tableField f => cases f <;> simp [isInline]
  | callHead head => cases head <;> simp [isInline]
  | suffix s => cases s <;> simp [isInline]
  | typeField f => cases f <;> simp [isInline]
  | elseIfExpr b | call c | args as | typeArg a => simp [isInline]
  | _ => simp [isInline] at hinline

theorem opensComment_signature (n : Node) : ∀ m ∈ n.signature, m.opensComment = false := by
  have hnames (gs : Option Generics) : ∀ m ∈ genericNames gs, m.opensComment = false := by
    cases gs <;> simp [genericNames]
  unfold signature
  split <;> first | exact hnames _ | simp

theorem dashesIff_doc (n : Node) (hinline : n.isInline = true) (hn : n.Undashed) :
    (n.doc reg).DashesIff (∃ m ∈ n.shown, m.opensComment = true) (n.startsWithDash = true) := by
  induction n using Node.inductionOn with
  | step n ih =>
      have hparts : ∀ p ∈ n.parts, (p.doc reg).DashesIff (∃ m ∈ p.shown, m.opensComment = true)
          (p.startsWithDash = true) := fun p hp =>
        have hchild := n.parts_subset_children hp
        ih p hchild (isInline_of_mem_parts hinline hn.not_function hn.not_custom p hp)
          (hn.child hchild)
      refine (dashesIff_of_parts hinline hn hparts).congr ?_ Iff.rfl
      have hnames : ¬∃ m ∈ n.signature, m.opensComment = true := by
        simpa using n.opensComment_signature
      rw [shown_eq]
      simp only [List.mem_append, List.mem_cons, List.mem_flatMap]
      grind

theorem violation?_doc_of_undashed (n : Node) (hinline : n.isInline = true) (hn : n.Undashed) :
    (n.doc reg).violation? = none := by
  induction n using Node.inductionOn with
  | step n ih =>
      have hcustom := hn.not_custom
      have hself : n.violation? reg = none := by
        unfold violation?
        split
        · exact absurd hinline (by simp [isInline])
        · exact absurd hcustom (by simp)
        · exact absurd hcustom (by simp)
        · rfl
      have hparts : faults reg n.parts = none := by
        refine List.findSome?_eq_none_iff.mpr fun p hp => ?_
        have hchild := n.parts_subset_children hp
        exact ih p hchild (isInline_of_mem_parts hinline hn.not_function hcustom p hp)
          (hn.child hchild)
      exact (violation?_doc_eq_none_iff hcustom).mpr ⟨hself, hparts⟩

end Node

theorem Printer.printExpr_dashes (p : Printer) (hindent : '-' ∉ p.style.indent.toList) (e : Expr)
    (he : (Node.expr e).Undashed) :
    ∃ text, p.printExpr e = .ok text ∧ (['-', '-'] <:+: text.toList ↔
      ∃ m ∈ (Node.expr e).shown, m.opensComment = true) := by
  have hok : ((Node.expr e).doc p.registry).violation? = none :=
    (Node.expr e).violation?_doc_of_undashed rfl he
  have hdoc : (e.doc p.registry).DashesIff
      (∃ m ∈ (Node.expr e).shown, m.opensComment = true) (e.startsWithDash = true) :=
    (Node.expr e).dashesIff_doc rfl he
  have hdashes := hdoc (.ofUnit p.style.indent) false hindent rfl
  refine ⟨((e.doc p.registry).draw (.ofUnit p.style.indent)).output, ?_, ?_⟩
  · simp only [Node.doc] at hok
    rw [printExpr, print, hok]
  · have hiff := dashes_eq_none_iff false
      ((e.doc p.registry).draw (.ofUnit p.style.indent)).output.toList
    simp only [Bool.false_eq_true, false_and, false_or, or_false] at hdashes hiff
    rw [← hiff]
    exact hdashes

theorem Printer.printExpr_dashes_wrapped :
    ∃ text, Printer.printExpr {} (.table ⟨[.keyed
        (.unary .minus (.literal (.number ⟨0xBFF0000000000000⟩)))
        (.assertion (.literal (.number ⟨0xBFF0000000000000⟩)) (.callback none [] (.basic "T")))],
          false⟩) = .ok text ∧
      ¬['-', '-'] <:+: text.toList := by
  obtain ⟨text, hprint, hdashes⟩ := Printer.printExpr_dashes {} (by decide) (.table ⟨[.keyed
    (.unary .minus (.literal (.number ⟨0xBFF0000000000000⟩)))
    (.assertion (.literal (.number ⟨0xBFF0000000000000⟩)) (.callback none [] (.basic "T")))],
      false⟩) (by decide)
  refine ⟨text, hprint, ?_⟩
  rw [hdashes]
  decide

theorem Printer.printExpr_asserted_sign :
    (Node.expr (.unary .minus (.assertion (.literal (.number ⟨0xBFF0000000000000⟩))
        (.basic "number")))).Undashed ∧
      Printer.printExpr {} (.unary .minus (.assertion (.literal (.number ⟨0xBFF0000000000000⟩))
        (.basic "number"))) = .ok "--1 :: number" ∧
      ['-', '-'] <:+: "--1 :: number".toList := by
  decide

end LuauSyntax
