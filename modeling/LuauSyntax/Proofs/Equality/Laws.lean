import LuauSyntax.Proofs.Equality.Tree
import LuauSyntax.Proofs.Node.Leaves

namespace LuauSyntax

section Lists

variable {α β : Type}

theorem forall₂_append_iff {R : α → β → Prop} {as bs : List α} {as' bs' : List β}
    (hlength : as.length = as'.length) :
    List.Forall₂ R (as ++ bs) (as' ++ bs') ↔ List.Forall₂ R as as' ∧ List.Forall₂ R bs bs' := by
  induction as generalizing as' with
  | nil =>
      obtain rfl : as' = [] := List.length_eq_zero_iff.mp hlength.symm
      simp
  | cons a as ih =>
      cases as' with
      | nil => simp at hlength
      | cons a' as' =>
          have hiff := ih (Nat.succ.inj hlength)
          simp [hiff, and_assoc]

theorem length_toList (o : Option α) : o.toList.length = o.isSome.toNat := by
  cases o <;> rfl

theorem length_reduceOption (os : List (Option α)) :
    os.reduceOption.length = (os.map Option.isSome).count true := by
  induction os with
  | nil => rfl
  | cons o os ih => cases o <;> simp [ih]

theorem forall₂_symm {R : α → α → Prop} {as bs : List α} (h : List.Forall₂ R as bs)
    (hR : ∀ a ∈ as, ∀ {b}, R a b → R b a) : List.Forall₂ R bs as := by
  induction h with
  | nil => exact .nil
  | cons hab _ ih =>
      exact .cons (hR _ (by simp) hab) (ih fun a ha => hR a (by simp [ha]))

theorem forall₂_trans {R : α → α → Prop} {as bs cs : List α} (h : List.Forall₂ R as bs)
    (h' : List.Forall₂ R bs cs) (hR : ∀ a ∈ as, ∀ {b c}, R a b → R b c → R a c) :
    List.Forall₂ R as cs := by
  induction h generalizing cs with
  | nil => exact h'
  | cons hab _ ih =>
      obtain ⟨c, cs, hbc, hrest, rfl⟩ := List.forall₂_cons_left_iff.mp h'
      exact .cons (hR _ (by simp) hab hbc) (ih hrest fun a ha => hR a (by simp [ha]))

theorem forall₂_of_forall₂ {R S : α → β → Prop} {as : List α} {bs : List β}
    (h : List.Forall₂ R as bs) (hRS : ∀ a ∈ as, ∀ {b}, R a b → S a b) : List.Forall₂ S as bs := by
  induction h with
  | nil => exact .nil
  | cons hab _ ih =>
      exact .cons (hRS _ (by simp) hab) (ih fun a ha => hRS a (by simp [ha]))

end Lists

open Node (Equal ofExprs ofTypes ofAnnotations ofGenerics ofType?)

variable {cs : List Node}

theorem Expr.equals_of_refill {e e' : Expr} (h : e.refill cs = some (e', []))
    (hc : List.Forall₂ Equal e.children cs) (hn : e.asNumber? = none) : e.equals e' := by
  cases e with
  | literal v =>
      obtain ⟨rfl, rfl⟩ := Refill.pure_eq_some.mp h
      cases v <;> simp_all [Expr.equals, Literal.equals, Expr.asNumber?]
  | _ =>
      simp [Expr.refill] at h
      casesm* _ ∧ _, Exists _
      subst_vars
      simp_all [Expr.children, Part.node, ofExprs, Expr.equals, Table.equals_iff, Custom.equals_iff,
        Expr.equalAll_iff, TableField.equalAll_iff, Segment.equalAll_iff,
        ElseIfExpr.equalAll_iff, forall₂_append_iff]

theorem Ty.equals_of_refill {t t' : Ty} (h : t.refill cs = some (t', []))
    (hc : List.Forall₂ Equal t.children cs) : t.equals t' := by
  cases t <;> simp [Ty.refill] at h <;> casesm* _ ∧ _, Exists _ <;> subst_vars <;>
    simp_all [Ty.children, Part.node, ofTypes, ofGenerics, ofType?, Ty.equals, Ty.equalAll_iff,
      TypeField.equalAll_iff, TypeArg.equalAll_iff, Ty.equalOption_iff,
      GenericParam.equalOption_iff, forall₂_append_iff, length_toList]

theorem Stmt.equals_of_refill {s s' : Stmt} (h : s.refill cs = some (s', []))
    (hc : List.Forall₂ Equal s.children cs) : s.equals s' := by
  cases s <;> simp [Stmt.refill] at h <;> casesm* _ ∧ _, Exists _ <;> subst_vars <;>
    simp_all [Stmt.children, Part.node, ofExprs, ofAnnotations, ofGenerics, Stmt.equals,
      Custom.equals_iff, Expr.equalAll_iff, Expr.equalOption_iff, Ty.equalAnnotations_iff,
      Stmt.equalOption_iff, ElseIf.equalAll_iff, GenericParam.equalOption_iff, forall₂_append_iff,
      length_toList, length_reduceOption]

namespace Node

def asNumber? : Node → Option Number
  | .expr e => e.asNumber?
  | _ => none

theorem asNumber?_eq_some_iff {n : Node} {x : Number} :
    n.asNumber? = some x ↔ n = .expr (.literal (.number x)) := by
  constructor
  · intro h
    cases n with
    | expr e =>
        simp only [asNumber?, Expr.asNumber?] at h
        split at h
        · rw [Option.some.inj h]
        · cases h
    | _ => cases h
  · rintro rfl
    rfl

theorem asNumber?_eq_of_refill_eq {n n' : Node} (h : n.refill = n'.refill) :
    n.asNumber? = n'.asNumber? := by
  refine own_eq_of_refill_eq (fun k x hk => ?_) h
  rw [asNumber?_eq_some_iff.mp hk]
  rfl

theorem equal_of_refill {n n' : Node} (h : n.refill cs = some (n', []))
    (hc : List.Forall₂ Equal n.children cs) (hn : n.asNumber? = none) : n.Equal n' := by
  cases n with
  | expr e =>
      obtain ⟨e', he, rfl⟩ := Refill.map_eq_some.mp h
      exact Expr.equals_of_refill he hc hn
  | stmt s =>
      obtain ⟨s', hs, rfl⟩ := Refill.map_eq_some.mp h
      exact Stmt.equals_of_refill hs hc
  | type t =>
      obtain ⟨t', ht, rfl⟩ := Refill.map_eq_some.mp h
      exact Ty.equals_of_refill ht hc
  | block b =>
      obtain ⟨b', hb, rfl⟩ := Refill.map_eq_some.mp h
      obtain ⟨hlength, rfl⟩ := Refill.takeAll_eq_some.mp hb
      rw [List.append_nil] at hc
      exact Stmt.equalAll_iff.mpr ⟨hlength.symm, hc⟩
  | args as =>
      obtain ⟨as', has, rfl⟩ := Refill.map_eq_some.mp h
      obtain ⟨hlength, rfl⟩ := Refill.takeAll_eq_some.mp has
      rw [List.append_nil] at hc
      exact Expr.equalAll_iff.mpr ⟨hlength.symm, hc⟩
  | generics gs =>
      obtain ⟨gs', hgs, rfl⟩ := Refill.map_eq_some.mp h
      obtain ⟨hlength, rfl⟩ := Refill.takeAll_eq_some.mp hgs
      rw [List.append_nil] at hc
      exact GenericParam.equalAll_iff.mpr ⟨hlength.symm, hc⟩
  | parameter p =>
      obtain ⟨rfl, rfl⟩ := Refill.pure_eq_some.mp h
      exact beq_self_eq_true p
  | segment x | tableField x | callHead x | suffix x | typeField x =>
      cases x <;> simp [refill] at h <;> casesm* _ ∧ _, Exists _ <;> subst_vars <;>
        simp_all [children, Segment.children, TableField.children, CallHead.children,
          Suffix.children, TypeField.children, Part.node, Equal, Node.equals, Segment.equals,
          TableField.equals, CallHead.equals, Suffix.equals, TypeField.equals]
  | functionBody x =>
      obtain ⟨gs, ps, ts, r, b⟩ := x
      simp [refill] at h
      obtain ⟨gs', ps', ts', r', b', ⟨hgs, rfl⟩, hps, hts, hr, rfl⟩ := h
      simp only [children, FunctionBody.children, List.append_assoc] at hc
      rw [forall₂_append_iff (by simp [ofGenerics, length_toList, hgs]),
        forall₂_append_iff (by simp [hps]),
        forall₂_append_iff (by simp [ofAnnotations, length_reduceOption, hts]),
        forall₂_append_iff (by simp [ofType?, length_toList, hr])] at hc
      obtain ⟨hcgs, hcps, hcts, hcr, hcb⟩ := hc
      rw [List.forall₂_map_left_iff, List.forall₂_map_right_iff] at hcps
      have hparameters : List.Forall₂ Eq ps ps' := hcps.imp fun _ _ h => beq_iff_eq.mp h
      rw [List.forall₂_eq_eq_eq] at hparameters
      simp only [equal_functionBody, FunctionBody.equals, Bool.and_eq_true, beq_iff_eq,
        GenericParam.equalOption_iff, Ty.equalAnnotations_iff, Ty.equalOption_iff]
      exact ⟨⟨⟨⟨⟨hgs.symm, hcgs⟩, hparameters⟩, hts.symm, hcts⟩, hr.symm, hcr⟩,
        (List.forall₂_cons.mp hcb).1⟩
  | call c =>
      obtain ⟨head, ss⟩ := c
      simp [refill] at h
      obtain ⟨head', ss', rfl, hss, rfl⟩ := h
      obtain ⟨hchead, hcss⟩ := List.forall₂_cons.mp hc
      simp only [equal_call, Call.equals, Bool.and_eq_true, Suffix.equalAll_iff]
      exact ⟨hchead, hss.symm, hcss⟩
  | genericParam g =>
      obtain ⟨n, b, d⟩ := g
      simp [refill] at h
      obtain ⟨b', d', ⟨hb, rfl⟩, hd, rfl⟩ := h
      rw [children, GenericParam.children,
        forall₂_append_iff (by simp [ofType?, length_toList, hb])] at hc
      simp only [Equal, Node.equals, GenericParam.equals, Bool.and_eq_true, beq_self_eq_true,
        true_and, Ty.equalOption_iff]
      exact ⟨⟨hb.symm, hc.1⟩, hd.symm, hc.2⟩
  | chunk x | elseIf x | elseIfExpr x | typeArg x =>
      cases x
      simp [refill] at h
      casesm* _ ∧ _, Exists _
      subst_vars
      simp_all [children, Part.node, ElseIf.children, ElseIfExpr.children, TypeArg.children, Equal,
        Node.equals, Chunk.equals, ElseIf.equals, ElseIfExpr.equals, TypeArg.equals]

theorem equal_of_refill_eq {n n' : Node} (hr : n.refill = n'.refill)
    (hc : List.Forall₂ Equal n.children n'.children) (hn : n.asNumber? = none) : n.Equal n' := by
  refine equal_of_refill ?_ hc hn
  rw [hr, refill_children]

theorem equal_iff {n n' : Node} : n.Equal n' ↔
    (∃ x y, n.asNumber? = some x ∧ n'.asNumber? = some y ∧ x.equals y) ∨
      n.asNumber? = none ∧ n.refill = n'.refill ∧ List.Forall₂ Equal n.children n'.children := by
  constructor
  · intro h
    rcases refill_eq_of_equals h with ⟨x, y, rfl, rfl, hxy⟩ | ⟨hr, hc⟩
    · exact .inl ⟨x, y, rfl, rfl, hxy⟩
    · cases hn : n.asNumber? with
      | none => exact .inr ⟨rfl, hr, hc⟩
      | some x =>
          have hn' := (asNumber?_eq_of_refill_eq hr).symm.trans hn
          obtain rfl := asNumber?_eq_some_iff.mp hn
          obtain rfl := asNumber?_eq_some_iff.mp hn'
          exact .inl ⟨x, x, rfl, rfl, h⟩
  · rintro (⟨x, y, hx, hy, hxy⟩ | ⟨hn, hr, hc⟩)
    · rw [asNumber?_eq_some_iff.mp hx, asNumber?_eq_some_iff.mp hy]
      exact hxy
    · exact equal_of_refill_eq hr hc hn

end Node

namespace Number

theorem equals_symm {x y : Number} (h : x.equals y) : y.equals x := by
  simp only [equals, Bool.and_eq_true, Bool.or_eq_true, beq_iff_eq] at h ⊢
  obtain ⟨⟨hx, hy⟩, rfl | ⟨hzx, hzy⟩⟩ := h
  · exact ⟨⟨hx, hx⟩, .inl rfl⟩
  · exact ⟨⟨hy, hx⟩, .inr ⟨hzy, hzx⟩⟩

theorem equals_trans {x y z : Number} (h : x.equals y) (h' : y.equals z) : x.equals z := by
  simp only [equals, Bool.and_eq_true, Bool.or_eq_true, beq_iff_eq] at h h' ⊢
  obtain ⟨⟨hx, -⟩, rfl | ⟨hzx, hzy⟩⟩ := h
  · exact h'
  · obtain ⟨⟨-, hz⟩, rfl | ⟨-, hzz⟩⟩ := h'
    · exact ⟨⟨hx, hz⟩, .inr ⟨hzx, hzy⟩⟩
    · exact ⟨⟨hx, hz⟩, .inr ⟨hzx, hzz⟩⟩

theorem equals_self_iff {x : Number} : x.equals x ↔ x.isNaN = false := by
  simp [equals]

end Number

namespace Node

theorem Equal.symm {n n' : Node} (h : n.Equal n') : n'.Equal n := by
  induction n using inductionOn generalizing n' with
  | step n ih =>
      rcases equal_iff.mp h with ⟨x, y, hx, hy, hxy⟩ | ⟨hn, hr, hc⟩
      · exact equal_iff.mpr (.inl ⟨y, x, hy, hx, Number.equals_symm hxy⟩)
      · have hn' : n'.asNumber? = none := (asNumber?_eq_of_refill_eq hr).symm.trans hn
        exact equal_iff.mpr (.inr ⟨hn', hr.symm, forall₂_symm hc ih⟩)

theorem Equal.trans {n n' n'' : Node} (h : n.Equal n') (h' : n'.Equal n'') : n.Equal n'' := by
  induction n using inductionOn generalizing n' n'' with
  | step n ih =>
      rcases equal_iff.mp h with ⟨x, y, hx, hy, hxy⟩ | ⟨hn, hr, hc⟩
      · rcases equal_iff.mp h' with ⟨y', z, hy', hz, hyz⟩ | ⟨hn', -, -⟩
        · obtain rfl : y = y' := Option.some.inj (hy.symm.trans hy')
          exact equal_iff.mpr (.inl ⟨x, z, hx, hz, Number.equals_trans hxy hyz⟩)
        · rw [hy] at hn'
          cases hn'
      · rcases equal_iff.mp h' with ⟨y, z, hy, -, -⟩ | ⟨-, hr', hc'⟩
        · rw [← asNumber?_eq_of_refill_eq hr, hn] at hy
          cases hy
        · exact equal_iff.mpr (.inr ⟨hn, hr.trans hr', forall₂_trans hc hc' ih⟩)

def NaNFree (n : Node) : Prop :=
  ∀ x, .number x ∈ n.literals → x.isNaN = false

theorem naNFree_iff {n : Node} :
    n.NaNFree ↔ (∀ x ∈ n.asNumber?, x.isNaN = false) ∧ ∀ c ∈ n.children, c.NaNFree := by
  have hown (x : Number) : Literal.number x ∈ n.literal?.toList ↔ x ∈ n.asNumber? := by
    rw [Option.mem_toList, literal?_eq_some_iff, Option.mem_def, asNumber?_eq_some_iff]
  simp only [NaNFree, literals_eq n, List.mem_append, hown, List.mem_flatMap]
  constructor
  · intro h
    exact ⟨fun x hx => h x (.inl hx), fun c hc x hx => h x (.inr ⟨c, hc, hx⟩)⟩
  · rintro ⟨hn, hc⟩ x (hx | ⟨c, hmem, hx⟩)
    · exact hn x hx
    · exact hc c hmem x hx

theorem equal_self_iff (n : Node) : n.Equal n ↔ n.NaNFree := by
  induction n using inductionOn with
  | step n ih =>
      rw [equal_iff, naNFree_iff, List.forall₂_same]
      cases hn : n.asNumber? with
      | none => simpa using forall₂_congr ih
      | some x =>
          obtain rfl := asNumber?_eq_some_iff.mp hn
          simp [Number.equals_self_iff, children, Expr.children]

end Node

end LuauSyntax
