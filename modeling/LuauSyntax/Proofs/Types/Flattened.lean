import LuauSyntax.Proofs.Reading.Spelling

namespace LuauSyntax

open Doc

def Token.isTypeMark (c : Char) : Bool :=
  c ∈ [' ', ',', ':', '?', '|', '&', '-', '<', '>', '(', ')', '\x7b', '\x7d']

def Token.isTypeName (n : String) : Bool :=
  n ≠ "" && n.toList.all fun c => !isTypeMark c

theorem Token.isTypeName_iff (n : String) :
    isTypeName n = true ↔ n ≠ "" ∧ ∀ c ∈ n.toList, isTypeMark c = false := by
  simp [isTypeName]

theorem Token.isTypeMark_of_isNameChar {c : Char} (hc : isNameChar c = true) :
    isTypeMark c = false := by
  by_contra h
  have hmarks : [' ', ',', ':', '?', '|', '&', '-', '<', '>', '(', ')', '\x7b', '\x7d'].all
      (fun c => !isNameChar c) = true := by decide
  have hmark : isTypeMark c = true := by simpa using h
  simp only [isTypeMark, decide_eq_true_eq] at hmark
  simpa [hc] using List.all_eq_true.mp hmarks c hmark

theorem Token.isTypeName_of_isName {n : String} (h : isName n = true) : isTypeName n = true := by
  rw [isTypeName_iff]
  unfold isName at h
  split at h
  · cases h
  · rename_i c cs hchars
    simp only [Bool.and_eq_true, List.all_eq_true] at h
    obtain ⟨⟨hstart, hrest⟩, -⟩ := h
    have hfirst : isNameChar c = true := by
      simp only [isNameStart, isNameChar, Char.isAlphanum, Bool.or_eq_true] at hstart ⊢
      tauto
    refine ⟨fun hempty => by simp [hempty] at hchars, fun d hd => isTypeMark_of_isNameChar ?_⟩
    rw [hchars] at hd
    obtain rfl | hd := List.mem_cons.mp hd
    · exact hfirst
    · exact hrest d hd

open Token (isTypeName)

/-- The types that are read back from their text: a union or an intersection has two members or
more, a tuple does not have one element, and a callback is not generic. -/
inductive Ty.Readable : Ty → Prop
  | basic {n : String} (hn : isTypeName n = true) : Readable (.basic n)
  | array {t : Ty} (ht : Readable t) (a : Option Access) : Readable (.array t a)
  | tuple {ts : List Ty} (hts : ∀ t ∈ ts, Readable t) (hlength : ts.length ≠ 1) :
      Readable (.tuple ts none)
  | union {ts : List Ty} (hts : ∀ t ∈ ts, Readable t) (hlength : 2 ≤ ts.length) :
      Readable (.union ts)
  | inter {ts : List Ty} (hts : ∀ t ∈ ts, Readable t) (hlength : 2 ≤ ts.length) :
      Readable (.inter ts)
  | optional {t : Ty} (ht : Readable t) : Readable (.optional t)
  | callback {as : List TypeArg} {t : Ty} (has : ∀ a ∈ as, Readable a.type)
      (hnames : ∀ a ∈ as, ∀ n ∈ a.name, isTypeName n = true) (ht : Readable t) :
      Readable (.callback none as t)
  | generic {b : String} {ts : List Ty} (hb : isTypeName b = true) (hts : ∀ t ∈ ts, Readable t)
      (hlength : ts ≠ []) : Readable (.generic b ts)

inductive Join where
  | union
  | inter
deriving DecidableEq, Repr

namespace Join

def mark : Join → Char
  | .union => '|'
  | .inter => '&'

def separator : Join → String
  | .union => " | "
  | .inter => " & "

theorem toList_separator (j : Join) : j.separator.toList = [' ', j.mark, ' '] := by
  cases j <;> rfl

def rank : Join → Nat
  | .union => 1
  | .inter => 2

def type : Join → List Ty → Ty
  | .union => .union
  | .inter => .inter

def wraps : Join → Ty → Bool
  | .union => Ty.isWrappedInUnion
  | .inter => Ty.isWrappedInInter

def members : Join → Ty → List Ty
  | .union, .union ts => ts
  | .inter, .inter ts => ts
  | _, t => [t]

end Join

mutual

def Ty.flattened : Ty → Ty
  | .array t a => .array t.flattened a
  | .tuple ts r => .tuple (Ty.flattenedAll ts) r
  | .union ts => .union ((Ty.flattenedAll ts).flatMap (Join.members .union))
  | .inter ts => .inter ((Ty.flattenedAll ts).flatMap (Join.members .inter))
  | .optional t => .optional t.flattened
  | .callback gs as t => .callback gs (TypeArg.flattenedAll as) t.flattened
  | .generic b ts => .generic b (Ty.flattenedAll ts)
  | t => t

def Ty.flattenedAll : List Ty → List Ty
  | [] => []
  | t :: ts => t.flattened :: Ty.flattenedAll ts

def TypeArg.flattened : TypeArg → TypeArg
  | ⟨n, t⟩ => ⟨n, t.flattened⟩

def TypeArg.flattenedAll : List TypeArg → List TypeArg
  | [] => []
  | a :: as => a.flattened :: TypeArg.flattenedAll as

end

theorem Ty.flattenedAll_eq_map (ts : List Ty) : Ty.flattenedAll ts = ts.map Ty.flattened :=
  eq_map_of_cons rfl (fun _ _ => rfl) ts

theorem TypeArg.flattenedAll_eq_map (as : List TypeArg) :
    TypeArg.flattenedAll as = as.map TypeArg.flattened :=
  eq_map_of_cons rfl (fun _ _ => rfl) as

namespace Join

variable {reg : Registry}

def memberDoc (reg : Registry) (j : Join) (t : Ty) : Doc :=
  wrapIf (j.wraps t) (t.doc reg)

theorem doc_type (j : Join) (ts : List Ty) :
    (j.type ts).doc reg = separated j.separator (ts.map (j.memberDoc reg)) := by
  cases j with
  | union => exact congrArg (separated " | ") (Ty.unionDocs_eq_map reg ts)
  | inter => exact congrArg (separated " & ") (Ty.interDocs_eq_map reg ts)

theorem flattened_type (j : Join) (ts : List Ty) :
    (j.type ts).flattened = j.type ((ts.map Ty.flattened).flatMap j.members) := by
  cases j <;> simp [type, Ty.flattened, Ty.flattenedAll_eq_map]

theorem members_type (j : Join) (ts : List Ty) : j.members (j.type ts) = ts := by
  cases j <;> rfl

theorem wraps_type (j : Join) (ts : List Ty) : j.wraps (j.type ts) = false := by
  cases j <;> rfl

theorem eq_type_or_members_eq (j : Join) (t : Ty) : (∃ ts, t = j.type ts) ∨ j.members t = [t] := by
  cases j <;> cases t <;> first | exact .inr rfl | exact .inl ⟨_, rfl⟩

theorem wraps_flattened (j : Join) (t : Ty) : j.wraps t.flattened = j.wraps t := by
  cases j <;> cases t <;> rfl

theorem chars_separated_append (j : Join) {ts us : List Ty} (hts : ts ≠ []) (hus : us ≠ []) :
    (separated j.separator ((ts ++ us).map (j.memberDoc reg))).chars =
      (separated j.separator (ts.map (j.memberDoc reg))).chars ++ j.separator.toList ++
        (separated j.separator (us.map (j.memberDoc reg))).chars := by
  obtain ⟨u, us, rfl⟩ := List.exists_cons_of_ne_nil hus
  induction ts with
  | nil => exact absurd rfl hts
  | cons t ts ih =>
      cases ts with
      | nil => simp [chars_append, chars_text, separated, List.intercalate]
      | cons t' ts =>
          have hrest := ih (by simp)
          simp only [List.cons_append, List.map_cons, separated_cons_cons, chars_append,
            List.append_assoc] at hrest ⊢
          rw [hrest]

theorem chars_separated_members (j : Join) (t : Ty) :
    (separated j.separator ((j.members t).map (j.memberDoc reg))).chars =
      (j.memberDoc reg t).chars := by
  rcases j.eq_type_or_members_eq t with ⟨ts, rfl⟩ | hself
  · rw [members_type, memberDoc, wraps_type, doc_type]
    rfl
  · simp [hself, separated, List.intercalate]

theorem chars_separated_flatMap (j : Join) {ts : List Ty} (h : ∀ t ∈ ts, j.members t ≠ []) :
    (separated j.separator ((ts.flatMap j.members).map (j.memberDoc reg))).chars =
      (separated j.separator (ts.map (j.memberDoc reg))).chars := by
  induction ts with
  | nil => rfl
  | cons t ts ih =>
      obtain ⟨ht, hts⟩ := List.forall_mem_cons.mp h
      cases ts with
      | nil => simpa [separated, List.intercalate] using chars_separated_members j t
      | cons u us =>
          have hne : (u :: us).flatMap j.members ≠ [] := by
            simpa [List.flatMap_cons] using fun hu => absurd hu (hts u (by simp))
          rw [List.flatMap_cons, chars_separated_append j ht hne, ih hts, chars_separated_members]
          simp [separated_cons_cons, chars_append, chars_text]

end Join

namespace Ty

variable {reg : Registry}

theorem members_flattened_ne_nil {t : Ty} (h : t.Readable) (j : Join) :
    j.members t.flattened ≠ [] := by
  have hjoin (k : Join) {ts : List Ty} (hts : ∀ t ∈ ts, j.members t.flattened ≠ [])
      (hlength : 2 ≤ ts.length) : j.members (k.type ts).flattened ≠ [] := by
    rw [k.flattened_type]
    by_cases hjk : j = k
    · subst hjk
      rw [j.members_type]
      obtain ⟨t, ts, rfl⟩ := List.exists_cons_of_length_pos (Nat.lt_of_lt_of_le (by decide) hlength)
      simpa using fun ht => absurd ht (hts t (by simp))
    · cases j <;> cases k <;> first | exact absurd rfl hjk | exact List.cons_ne_nil _ _
  induction h with
  | union _ hlength ih => exact hjoin .union ih hlength
  | inter _ hlength ih => exact hjoin .inter ih hlength
  | _ => cases j <;> exact List.cons_ne_nil _ _

theorem chars_memberDoc_flattened {t : Ty}
    (h : (t.flattened.doc reg).chars = (t.doc reg).chars) (j : Join) :
    (j.memberDoc reg t.flattened).chars = (j.memberDoc reg t).chars := by
  rw [Join.memberDoc, Join.memberDoc, j.wraps_flattened]
  cases j.wraps t <;> simp [wrapIf, chars_append, h]

theorem chars_separated_congr {α β : Type} (s : String) {f : α → Doc} {g : β → Doc} {k : α → β}
    {l : List α} (h : ∀ a ∈ l, (g (k a)).chars = (f a).chars) :
    (separated s ((l.map k).map g)).chars = (separated s (l.map f)).chars := by
  induction l with
  | nil => rfl
  | cons a l ih =>
      obtain ⟨ha, hl⟩ := List.forall_mem_cons.mp h
      cases l with
      | nil => simpa [separated, List.intercalate] using ha
      | cons b l =>
          have hrest := ih hl
          simp only [List.map_cons, separated_cons_cons, chars_append] at hrest ⊢
          rw [ha, hrest]

theorem chars_flattened {t : Ty} (h : t.Readable) :
    (t.flattened.doc reg).chars = (t.doc reg).chars := by
  have hjoin (j : Join) {ts : List Ty} (hts : ∀ t ∈ ts, t.Readable)
      (ih : ∀ t ∈ ts, (t.flattened.doc reg).chars = (t.doc reg).chars) :
      ((j.type ts).flattened.doc reg).chars = ((j.type ts).doc reg).chars := by
    have hne : ∀ t ∈ ts.map Ty.flattened, j.members t ≠ [] :=
      List.forall_mem_map.mpr fun t ht => members_flattened_ne_nil (hts t ht) j
    rw [j.flattened_type, j.doc_type, j.doc_type, j.chars_separated_flatMap hne]
    exact chars_separated_congr _ fun t ht => chars_memberDoc_flattened (ih t ht) j
  induction h with
  | basic => rfl
  | array _ a ih => simp [Ty.flattened, Ty.doc, chars_append, ih]
  | tuple _ _ ih =>
      simp only [Ty.flattened, Ty.doc, Ty.flattenedAll_eq_map, Ty.docs_eq_map, Ty.restDoc,
        List.append_nil, chars_append]
      rw [chars_separated_congr _ ih]
  | union hts _ ih => exact hjoin .union hts ih
  | inter hts _ ih => exact hjoin .inter hts ih
  | @optional t _ ih =>
      have hwrap : t.flattened.isWrappedInOptional = t.isWrappedInOptional := by cases t <;> rfl
      cases h : t.isWrappedInOptional <;>
        simp [Ty.flattened, Ty.doc, chars_append, wrapIf, hwrap, h, ih]
  | @callback as _ _ _ _ has ht =>
      have hargs : ∀ a ∈ as, (a.flattened.doc reg).chars = (a.doc reg).chars := by
        rintro ⟨name, t⟩ ha
        have ht : (t.flattened.doc reg).chars = (t.doc reg).chars := has _ ha
        cases name <;> simp [TypeArg.flattened, TypeArg.doc, chars_append, ht]
      simp only [Ty.flattened, Ty.doc, TypeArg.flattenedAll_eq_map, TypeArg.docs_eq_map,
        chars_append, ht]
      rw [chars_separated_congr _ hargs]
  | generic _ _ _ ih =>
      simp only [Ty.flattened, Ty.doc, Ty.flattenedAll_eq_map, Ty.docs_eq_map, chars_append]
      rw [chars_separated_congr _ ih]

end Ty

end LuauSyntax
