import LuauSyntax.Proofs.Types.Reader

namespace LuauSyntax

open Doc
open Token (isTypeMark isTypeName isTypeName_of_isName)

namespace TypeReading

def Begins (rank : Nat) (fs : List Frame) : Prop :=
  ∀ f ∈ fs.head?, ∀ j ts, f = .members j ts → j.rank < rank

def ReadsAs (level : Nat) (text : List Char) (v : Ty) : Prop :=
  ∀ fs cs, Begins (level + 1) fs → Follows level cs →
    run ⟨fs, .operand⟩ (text ++ cs) = run ⟨fs, .after v⟩ cs

def begun (j : Join) (done : List Ty) (fs : List Frame) : List Frame :=
  if done.isEmpty then fs else .members j done :: fs

def ReadsMembers (j : Join) (text : List Char) (ts : List Ty) : Prop :=
  ∃ init last, ts = init ++ [last] ∧ ∀ fs done cs, Begins j.rank fs → Follows j.rank cs →
    run ⟨begun j done fs, .operand⟩ (text ++ cs) = run ⟨begun j (done ++ init) fs, .after last⟩ cs

theorem Begins.mono {k l : Nat} {fs : List Frame} (h : Begins k fs) (hkl : k ≤ l) :
    Begins l fs :=
  fun f hf j ts hfj => Nat.lt_of_lt_of_le (h f hf j ts hfj) hkl

theorem begins_cons {f : Frame} (h : ∀ j ts, f ≠ .members j ts) (rank : Nat) (fs : List Frame) :
    Begins rank (f :: fs) := by
  intro g hg j ts hgj
  obtain rfl : f = g := by simpa using hg
  exact absurd hgj (h j ts)

theorem begins_begun {j : Join} {fs : List Frame} (h : Begins j.rank fs) (done : List Ty) :
    Begins (j.rank + 1) (begun j done fs) := by
  cases done with
  | nil => exact h.mono (Nat.le_succ _)
  | cons t ts =>
      intro f hf k us hfk
      obtain rfl : Frame.members j (t :: ts) = f := by simpa [begun] using hf
      obtain ⟨rfl, -⟩ := Frame.members.inj hfk
      exact Nat.lt_succ_self _

theorem follows_separator (j : Join) (cs : List Char) :
    Follows j.rank (j.separator.toList ++ cs) := by
  cases j <;> exact ⟨_, rfl, Nat.le_refl _⟩

theorem continued_mark (j : Join) (fs : List Frame) (v : Ty) :
    continued fs v j.mark = some (joined j (close j.rank fs v)) := by
  cases j <;> rfl

theorem run_separator {j : Join} {fs : List Frame} (h : Begins j.rank fs) (done : List Ty) (v : Ty)
    (cs : List Char) :
    run ⟨begun j done fs, .after v⟩ (j.separator.toList ++ cs) =
      run ⟨begun j (done ++ [v]) fs, .operand⟩ cs := by
  have hrank : ∀ f ∈ (begun j done fs).head?, f.rank ≤ j.rank := by
    intro f hf
    cases f with
    | members k ts => exact Nat.le_of_lt_succ (begins_begun h done _ hf k ts rfl)
    | result as => cases j <;> exact Nat.le_of_ble_eq_true rfl
    | array _ | list _ _ _ => exact Nat.zero_le _
  have hjoined : joined j (begun j done fs, v) = ⟨begun j (done ++ [v]) fs, .operand⟩ := by
    cases done with
    | cons t ts => simp [begun, joined]
    | nil =>
        cases fs with
        | nil => rfl
        | cons f fs =>
            cases f with
            | members k ts =>
                -- Members of the same kind around would take this one as theirs.
                have hk : k ≠ j := by
                  rintro rfl
                  exact absurd (h _ rfl k ts rfl) (Nat.lt_irrefl _)
                simp [begun, joined, hk]
            | _ => rfl
  have hmark : step ⟨begun j done fs, .after v⟩ j.mark =
      some ⟨begun j (done ++ [v]) fs, .operand⟩ := by
    rw [← hjoined, ← close_of_le hrank v]
    exact continued_mark j _ v
  rw [j.toList_separator, List.cons_append, run_after_blank, List.cons_append,
    run_of_step hmark, List.cons_append, run_blank, List.nil_append]

theorem ReadsAs.mono {k l : Nat} {text : List Char} {v : Ty} (h : ReadsAs l text v) (hkl : k ≤ l) :
    ReadsAs k text v :=
  fun fs cs hfs hcs => h fs cs (hfs.mono (Nat.succ_le_succ hkl)) (hcs.mono hkl)

theorem ReadsAs.members {j : Join} {text : List Char} {v : Ty} (h : ReadsAs j.rank text v) :
    ReadsMembers j text [v] := by
  refine ⟨[], v, rfl, fun fs done cs hfs hcs => ?_⟩
  rw [List.append_nil]
  exact h _ cs (begins_begun hfs done) hcs

theorem ReadsMembers.append {j : Join} {text text' : List Char} {ts us : List Ty}
    (ht : ReadsMembers j text ts) (hu : ReadsMembers j text' us) :
    ReadsMembers j (text ++ j.separator.toList ++ text') (ts ++ us) := by
  obtain ⟨init, last, rfl, ht⟩ := ht
  obtain ⟨init', last', rfl, hu⟩ := hu
  refine ⟨init ++ [last] ++ init', last', by simp, fun fs done cs hfs hcs => ?_⟩
  rw [List.append_assoc, List.append_assoc, ht fs done _ hfs (follows_separator j _),
    run_separator hfs, hu fs _ cs hfs hcs]
  simp

theorem ReadsMembers.readsAs {j : Join} {text : List Char} {ts : List Ty}
    (h : ReadsMembers j text ts) (hlength : 2 ≤ ts.length) :
    ReadsAs (j.rank - 1) text (j.type ts) := by
  obtain ⟨init, last, rfl, h⟩ := h
  have hrank : j.rank - 1 + 1 = j.rank := by cases j <;> rfl
  have hbegun (fs : List Frame) : begun j init fs = .members j init :: fs := by
    cases init with
    | nil => simp at hlength
    | cons t ts => rfl
  have hlt : j.rank - 1 < (Frame.members j init).rank := Nat.lt_of_succ_le (Nat.le_of_eq hrank)
  intro fs cs hfs hcs
  have hread := h fs [] cs (hrank ▸ hfs) (hcs.mono (Nat.sub_le _ _))
  rw [List.nil_append, hbegun] at hread
  exact hread.trans (run_complete hlt hcs fs last)

theorem ReadsAs.wrapped {text : List Char} {v : Ty} (h : ReadsAs 0 text v) :
    ReadsAs 3 ('(' :: text ++ [')']) v := by
  intro fs cs _ hcs
  have hclose : step ⟨.list none [] none :: fs, .after v⟩ ')' =
      some ⟨fs, .closed [⟨none, v⟩]⟩ := rfl
  have hread := h (.list none [] none :: fs) (')' :: cs) (begins_cons (by simp) _ _)
    ⟨0, rfl, Nat.le_refl 0⟩
  rw [List.cons_append, List.cons_append, run_open, List.append_assoc, List.singleton_append,
    hread, run_of_step hclose]
  exact run_of_value? rfl hcs fs

theorem ReadsAs.optional {text : List Char} {v : Ty} (h : ReadsAs 3 text v) :
    ReadsAs 3 (text ++ ['?']) (.optional v) := by
  intro fs cs hfs _
  have hmark : step ⟨fs, .after v⟩ '?' = some ⟨fs, .after (.optional v)⟩ := rfl
  rw [List.append_assoc, List.singleton_append, h fs _ hfs ⟨3, rfl, Nat.le_refl 3⟩,
    run_of_step hmark]

theorem readsAs_basic {n : String} (hn : isTypeName n = true) : ReadsAs 3 n.toList (.basic n) := by
  intro fs cs _ hcs
  rw [run_name hn]
  exact run_of_value? (by simp [Focus.value?]) hcs fs

theorem continued_of_not_mark {c : Char} (h : isTypeMark c = false) (fs : List Frame) (v : Ty) :
    continued fs v c = accessed c (fs, v) := by
  unfold continued
  split
  iterate 8 exact absurd h (by decide)
  rfl

def Starts (text : List Char) : Prop :=
  ∃ c ∈ text.head?, isTypeMark c = false ∨ c = '(' ∨ c = '\x7b'

theorem Starts.append {text : List Char} (h : Starts text) (cs : List Char) :
    Starts (text ++ cs) := by
  obtain ⟨c, hc, hstart⟩ := h
  exact ⟨c, by simp [List.head?_append, Option.mem_def.mp hc], hstart⟩

theorem starts_name {n : String} (hn : isTypeName n = true) : Starts n.toList := by
  obtain ⟨hne, hchars⟩ := (Token.isTypeName_iff n).mp hn
  obtain ⟨c, cs, hcs⟩ := List.exists_cons_of_ne_nil (l := n.toList) (by simpa using hne)
  exact ⟨c, by simp [hcs], .inl (hchars c (by simp [hcs]))⟩

theorem run_access (a : Access) {text : List Char} (h : Starts text) (fs : List Frame) :
    run ⟨.array none :: fs, .operand⟩ (a.token.toList ++ ' ' :: text) =
      run ⟨.array (some a) :: fs, .operand⟩ text := by
  obtain ⟨c, hc, hstart⟩ := h
  obtain ⟨rest, rfl⟩ : ∃ rest, text = c :: rest := by
    cases text with
    | nil => cases hc
    | cons d rest => exact ⟨rest, by simpa using hc⟩
  have hname : isTypeName a.token = true := by cases a <;> decide
  have hblank : step ⟨.array none :: fs, .word a.token.toList⟩ ' ' =
      some ⟨.array none :: fs, .after (.basic a.token)⟩ := by cases a <;> rfl
  have haccess : accessed c (.array none :: fs, .basic a.token) =
      operand (.array (some a) :: fs) c := by cases a <;> rfl
  -- The name is an element until a second type begins right after it.
  have hstep : step ⟨.array none :: fs, .after (.basic a.token)⟩ c =
      step ⟨.array (some a) :: fs, .operand⟩ c := by
    rcases hstart with hstart | rfl | rfl
    · exact (continued_of_not_mark hstart _ _).trans haccess
    · exact haccess
    · exact haccess
  rw [run_name hname, run_of_step hblank, run_cons, run_cons, hstep]

theorem ReadsAs.array {text : List Char} {v : Ty} (h : ReadsAs 0 text v) (hstarts : Starts text)
    (a : Option Access) :
    ReadsAs 3 ('\x7b' :: ' ' :: ((access a).chars ++ text ++ [' ', '\x7d'])) (.array v a) := by
  intro fs cs _ hcs
  have hopen : step ⟨fs, .operand⟩ '\x7b' = some ⟨.array none :: fs, .operand⟩ := rfl
  have hclose : step ⟨.array a :: fs, .after v⟩ '\x7d' = some ⟨fs, .after (.array v a)⟩ := rfl
  have haccess : run ⟨.array none :: fs, .operand⟩
        ((access a).chars ++ (text ++ ' ' :: '\x7d' :: cs)) =
      run ⟨.array a :: fs, .operand⟩ (text ++ ' ' :: '\x7d' :: cs) := by
    cases a with
    | none => rfl
    | some a =>
        simpa [access, chars_append, chars_text] using run_access a (hstarts.append _) fs
  have hread := h (.array a :: fs) (' ' :: '\x7d' :: cs) (begins_cons (by simp) _ _)
    ⟨0, rfl, Nat.le_refl 0⟩
  calc run ⟨fs, .operand⟩ ('\x7b' :: ' ' :: ((access a).chars ++ text ++ [' ', '\x7d']) ++ cs)
      = run ⟨.array none :: fs, .operand⟩
          ((access a).chars ++ (text ++ ' ' :: '\x7d' :: cs)) := by
        simp [run_of_step hopen, run_blank]
    _ = run ⟨.array a :: fs, .after v⟩ (' ' :: '\x7d' :: cs) := haccess.trans hread
    _ = run ⟨fs, .after (.array v a)⟩ cs := by
        rw [run_after_blank, run_of_step hclose]

def ReadsItem (base : Option String) (text : List Char) (a : TypeArg) : Prop :=
  ∀ fs done c cs, c ∈ [',', ')', '>'] →
    run ⟨.list base done none :: fs, .operand⟩ (text ++ c :: cs) =
      (ended (.list base done a.name :: fs, a.type) c).bind fun s => run s cs

theorem ReadsAs.run_end {text : List Char} {v : Ty} (h : ReadsAs 0 text v) (base : Option String)
    (done : List TypeArg) (name : Option String) (fs : List Frame) {c : Char}
    (hc : c ∈ [',', ')', '>']) (cs : List Char) :
    run ⟨.list base done name :: fs, .operand⟩ (text ++ c :: cs) =
      (ended (.list base done name :: fs, v) c).bind fun s => run s cs := by
  have hfollows : Follows 0 (c :: cs) := by
    simp only [List.mem_cons, List.not_mem_nil, or_false] at hc
    rcases hc with rfl | rfl | rfl <;> exact ⟨0, rfl, Nat.le_refl 0⟩
  have hstep : step ⟨.list base done name :: fs, .after v⟩ c =
      ended (.list base done name :: fs, v) c := by
    simp only [List.mem_cons, List.not_mem_nil, or_false] at hc
    rcases hc with rfl | rfl | rfl <;> rfl
  rw [h _ _ (begins_cons (by simp) _ _) hfollows, run_cons, hstep]

theorem ReadsAs.item {text : List Char} {v : Ty} (h : ReadsAs 0 text v) (base : Option String) :
    ReadsItem base text ⟨none, v⟩ :=
  fun fs done _ cs hc => h.run_end base done none fs hc cs

theorem ReadsAs.namedItem {text : List Char} {v : Ty} (h : ReadsAs 0 text v) {n : String}
    (hn : isTypeName n = true) :
    ReadsItem none (n.toList ++ ':' :: ' ' :: text) ⟨some n, v⟩ := by
  intro fs done c cs hc
  have hcolon : step ⟨.list none done none :: fs, .word n.toList⟩ ':' =
      some ⟨.list none done (some n) :: fs, .operand⟩ := by
    change named n.toList (.list none done none :: fs) = _
    simp [named]
  rw [List.append_assoc, run_name hn, List.cons_append, run_of_step hcolon, List.cons_append,
    run_blank, h.run_end none done (some n) fs hc cs]

theorem ended_comma (base : Option String) (done : List TypeArg) (fs : List Frame) (a : TypeArg) :
    ended (.list base done a.name :: fs, a.type) ',' =
      some ⟨.list base (done ++ [a]) none :: fs, .operand⟩ := by
  cases a
  rfl

theorem ended_list (base : Option String) (done : List TypeArg) (fs : List Frame) (a : TypeArg)
    {c : Char} (hc : c ∈ [')', '>']) :
    ended (.list base done a.name :: fs, a.type) c = listed base (done ++ [a]) fs c := by
  simp only [List.mem_cons, List.not_mem_nil, or_false] at hc
  cases a
  rcases hc with rfl | rfl <;> rfl

theorem run_items {α : Type} {f : α → Doc} {g : α → TypeArg} {base : Option String} {l : List α}
    (hl : l ≠ []) (h : ∀ a ∈ l, ReadsItem base (f a).chars (g a)) {c : Char}
    (hc : c ∈ [')', '>']) (fs : List Frame) (done : List TypeArg) (cs : List Char) :
    run ⟨.list base done none :: fs, .operand⟩ ((separated ", " (l.map f)).chars ++ c :: cs) =
      (listed base (done ++ l.map g) fs c).bind fun s => run s cs := by
  induction l generalizing done with
  | nil => exact absurd rfl hl
  | cons a l ih =>
      obtain ⟨ha, hrest⟩ := List.forall_mem_cons.mp h
      cases l with
      | nil =>
          have hread := ha fs done c cs (List.mem_cons_of_mem _ hc)
          rw [ended_list base done fs (g a) hc] at hread
          simpa [separated, List.intercalate] using hread
      | cons b l =>
          have hread := ha fs done ',' (' ' :: ((separated ", " ((b :: l).map f)).chars ++ c :: cs))
            (by decide)
          rw [ended_comma, Option.bind_some, run_blank, ih (by simp) hrest] at hread
          simpa [separated_cons_cons, chars_append, chars_text] using hread

theorem run_parens {α : Type} {f : α → Doc} {g : α → TypeArg} {l : List α}
    (h : ∀ a ∈ l, ReadsItem none (f a).chars (g a)) (fs : List Frame) (cs : List Char) :
    run ⟨fs, .operand⟩ ('(' :: (separated ", " (l.map f)).chars ++ ')' :: cs) =
      run ⟨fs, .closed (l.map g)⟩ cs := by
  have hclose : step ⟨.list none [] none :: fs, .operand⟩ ')' = some ⟨fs, .closed []⟩ := rfl
  rw [List.cons_append, run_open]
  cases l with
  | nil => exact run_of_step hclose cs
  | cons a l =>
      rw [run_items (by simp) h (by decide)]
      rfl

theorem grouped_map {ts : List Ty} (h : ts.length ≠ 1) :
    grouped (ts.map fun t => ⟨none, t⟩) = some (.tuple ts none) := by
  unfold grouped
  split
  · rename_i heq
    exact absurd (by simpa using congrArg List.length heq) h
  · simp [Function.comp_def]

end TypeReading

open TypeReading

namespace Doc

def IsText (d : Doc) : Prop :=
  ∀ p ∈ d, p.text?.isSome = true

@[simp]
theorem isText_nil : IsText [] := by
  simp [IsText]

@[simp]
theorem isText_text (t : String) : IsText (text t) := by
  simp [IsText, text, Piece.text?]

@[simp]
theorem isText_append (d e : Doc) : IsText (d ++ e) ↔ IsText d ∧ IsText e :=
  List.forall_mem_append

@[simp]
theorem isText_wrapIf (wrap : Bool) (d : Doc) : IsText (wrapIf wrap d) ↔ IsText d := by
  cases wrap <;> simp [wrapIf]

theorem isText_separated {α : Type} (s : String) {f : α → Doc} {l : List α}
    (h : ∀ a ∈ l, IsText (f a)) : IsText (separated s (l.map f)) := by
  induction l with
  | nil => exact isText_nil
  | cons a l ih =>
      obtain ⟨ha, hl⟩ := List.forall_mem_cons.mp h
      cases l with
      | nil => simpa [separated, List.intercalate] using ha
      | cons b l => simpa [separated_cons_cons, ha] using ih hl

end Doc

namespace Ty

variable {reg : Registry}

structure ReadsBack (reg : Registry) (t : Ty) : Prop where
  starts : Starts (t.doc reg).chars
  whole : ReadsAs 0 (t.doc reg).chars t.flattened
  members : ∀ j : Join, j.wraps t = false →
    ReadsMembers j (t.doc reg).chars (j.members t.flattened)
  tight : t.isWrappedInOptional = false → ReadsAs 3 (t.doc reg).chars t.flattened

theorem chars_wrapped (d : Doc) : (wrapIf true d).chars = '(' :: d.chars ++ [')'] := by
  simp [wrapIf, chars_append, chars_text]

theorem members_of_wraps {j : Join} {t : Ty} (h : j.wraps t = true) :
    j.members t.flattened = [t.flattened] := by
  cases j <;> cases t <;> first | rfl | cases h

namespace ReadsBack

variable {t : Ty}

theorem of_tight (hstarts : Starts (t.doc reg).chars)
    (hread : ReadsAs 3 (t.doc reg).chars t.flattened)
    (hmembers : ∀ j : Join, j.members t.flattened = [t.flattened]) : t.ReadsBack reg where
  starts := hstarts
  whole := hread.mono (Nat.zero_le 3)
  members j _ := by
    rw [hmembers j]
    exact (hread.mono (by cases j <;> decide)).members
  tight _ := hread

theorem memberDoc (h : t.ReadsBack reg) (j : Join) :
    ReadsMembers j (j.memberDoc reg t).chars (j.members t.flattened) := by
  unfold Join.memberDoc
  cases hwraps : j.wraps t with
  | false => exact h.members j hwraps
  | true =>
      rw [members_of_wraps hwraps, chars_wrapped]
      exact (h.whole.wrapped.mono (by cases j <;> decide)).members

theorem starts_memberDoc (h : t.ReadsBack reg) (j : Join) : Starts (j.memberDoc reg t).chars := by
  unfold Join.memberDoc
  cases j.wraps t with
  | false => exact h.starts
  | true =>
      rw [chars_wrapped]
      exact ⟨'(', rfl, .inr (.inl rfl)⟩

theorem optional (h : t.ReadsBack reg) : (Ty.optional t).ReadsBack reg := by
  have htext : ((Ty.optional t).doc reg).chars =
      (wrapIf t.isWrappedInOptional (t.doc reg)).chars ++ ['?'] := by
    simp [Ty.doc, chars_append, chars_text]
  have hinner : Starts (wrapIf t.isWrappedInOptional (t.doc reg)).chars ∧
      ReadsAs 3 (wrapIf t.isWrappedInOptional (t.doc reg)).chars t.flattened := by
    cases hwrap : t.isWrappedInOptional with
    | false => exact ⟨h.starts, h.tight hwrap⟩
    | true =>
        rw [chars_wrapped]
        exact ⟨⟨'(', rfl, .inr (.inl rfl)⟩, h.whole.wrapped⟩
  refine of_tight ?_ ?_ fun j => by cases j <;> rfl
  · rw [htext]
    exact hinner.1.append _
  · rw [htext]
    exact hinner.2.optional

theorem array (h : t.ReadsBack reg) (a : Option Access) : (Ty.array t a).ReadsBack reg := by
  have htext : ((Ty.array t a).doc reg).chars =
      '\x7b' :: ' ' :: ((access a).chars ++ (t.doc reg).chars ++ [' ', '\x7d']) := by
    simp [Ty.doc, chars_append, chars_text]
  refine of_tight ?_ ?_ fun j => by cases j <;> rfl
  · rw [htext]
    exact ⟨_, rfl, .inr (.inr rfl)⟩
  · rw [htext]
    exact h.whole.array h.starts a

variable {ts : List Ty}

theorem tuple (h : ∀ t ∈ ts, t.ReadsBack reg) (hlength : ts.length ≠ 1) :
    (Ty.tuple ts none).ReadsBack reg := by
  have htext : ((Ty.tuple ts none).doc reg).chars =
      '(' :: (separated ", " (ts.map (Ty.doc reg))).chars ++ [')'] := by
    simp [Ty.doc, Ty.docs_eq_map, Ty.restDoc, chars_append, chars_text]
  have hitems : ∀ t ∈ ts, ReadsItem none (t.doc reg).chars ⟨none, t.flattened⟩ :=
    fun t ht => (h t ht).whole.item none
  refine of_tight ?_ ?_ fun j => by cases j <;> rfl
  · rw [htext]
    exact ⟨_, rfl, .inr (.inl rfl)⟩
  · intro fs cs _ hcs
    have hvalue : Focus.value? (.closed (ts.map fun t => ⟨none, t.flattened⟩)) =
        some (Ty.tuple ts none).flattened := by
      have hgrouped := grouped_map (by simpa using hlength : (ts.map Ty.flattened).length ≠ 1)
      simpa [Focus.value?, Ty.flattened, Ty.flattenedAll_eq_map, Function.comp_def] using hgrouped
    rw [htext, List.append_assoc, List.singleton_append, run_parens hitems,
      run_of_value? hvalue hcs]

theorem generic {b : String} (hb : isTypeName b = true) (h : ∀ t ∈ ts, t.ReadsBack reg)
    (hts : ts ≠ []) : (Ty.generic b ts).ReadsBack reg := by
  have htext : ((Ty.generic b ts).doc reg).chars =
      b.toList ++ '<' :: ((separated ", " (ts.map (Ty.doc reg))).chars ++ ['>']) := by
    simp [Ty.doc, Ty.docs_eq_map, chars_append, chars_text]
  have hitems : ∀ t ∈ ts, ReadsItem (some b) (t.doc reg).chars ⟨none, t.flattened⟩ :=
    fun t ht => (h t ht).whole.item (some b)
  refine of_tight ?_ ?_ fun j => by cases j <;> rfl
  · rw [htext]
    exact (starts_name hb).append _
  · intro fs cs _ _
    have hopen : step ⟨fs, .word b.toList⟩ '<' =
        some ⟨.list (some (String.ofList b.toList)) [] none :: fs, .operand⟩ := rfl
    have hclose : listed (some b) (ts.map fun t => ⟨none, t.flattened⟩) fs '>' =
        some ⟨fs, .after (Ty.generic b ts).flattened⟩ := by
      simp [listed, Ty.flattened, Ty.flattenedAll_eq_map, Function.comp_def]
    rw [htext, List.append_assoc, run_name hb, List.cons_append, run_of_step hopen,
      String.ofList_toList, List.append_assoc, List.singleton_append,
      run_items hts hitems (by decide), List.nil_append, hclose]
    rfl

theorem separated {j : Join} (h : ∀ t ∈ ts, t.ReadsBack reg) (hts : ts ≠ []) :
    Starts (separated j.separator (ts.map (j.memberDoc reg))).chars ∧
      ReadsMembers j (Doc.separated j.separator (ts.map (j.memberDoc reg))).chars
        (ts.flatMap fun t => j.members t.flattened) := by
  induction ts with
  | nil => exact absurd rfl hts
  | cons t ts ih =>
      obtain ⟨ht, hrest⟩ := List.forall_mem_cons.mp h
      cases ts with
      | nil =>
          simpa [Doc.separated, List.intercalate] using
            And.intro (ht.starts_memberDoc j) (ht.memberDoc j)
      | cons u us =>
          obtain ⟨-, hmembers⟩ := ih hrest (by simp)
          simp only [List.map_cons, separated_cons_cons, chars_append, chars_text,
            List.flatMap_cons] at hmembers ⊢
          refine ⟨?_, (ht.memberDoc j).append hmembers⟩
          rw [List.append_assoc]
          exact (ht.starts_memberDoc j).append _

theorem length_le_flatMap {j : Join} (h : ∀ t ∈ ts, t.ReadsBack reg) :
    ts.length ≤ (ts.flatMap fun t => j.members t.flattened).length := by
  induction ts with
  | nil => exact Nat.le_refl 0
  | cons t ts ih =>
      obtain ⟨ht, hts⟩ := List.forall_mem_cons.mp h
      obtain ⟨init, last, hmembers, -⟩ := ht.memberDoc j
      have hrest := ih hts
      simp only [List.flatMap_cons, hmembers, List.length_append, List.length_cons]
      omega

theorem join {j : Join} (h : ∀ t ∈ ts, t.ReadsBack reg) (hlength : 2 ≤ ts.length) :
    (j.type ts).ReadsBack reg := by
  have hflattened : (j.type ts).flattened =
      j.type (ts.flatMap fun t => j.members t.flattened) := by
    rw [j.flattened_type, List.flatMap_map]
  obtain ⟨hstarts, hmembers⟩ := separated (j := j) h (by
    rintro rfl
    simp at hlength)
  rw [← j.doc_type] at hstarts hmembers
  have hread := hmembers.readsAs (Nat.le_trans hlength (length_le_flatMap h))
  rw [← hflattened] at hread
  refine ⟨hstarts, hread.mono (Nat.zero_le _), fun k hk => ?_, fun hw => ?_⟩
  · by_cases hkj : k = j
    · subst hkj
      rw [hflattened, k.members_type]
      exact hmembers
    · -- Only an intersection can be a member of a union as it stands.
      match j, k with
      | .union, .union | .inter, .inter => exact absurd rfl hkj
      | .union, .inter => cases hk
      | .inter, .union => exact ReadsAs.members (j := .union) hread
  · cases j <;> cases hw

theorem item {a : TypeArg} (h : a.type.ReadsBack reg)
    (hname : ∀ n ∈ a.name, isTypeName n = true) :
    ReadsItem none (a.doc reg).chars a.flattened := by
  obtain ⟨name, t⟩ := a
  cases name with
  | none => exact h.whole.item none
  | some n =>
      have hitem := ReadsAs.namedItem h.whole (hname n rfl)
      simpa [TypeArg.doc, TypeArg.flattened, chars_append, chars_text] using hitem

theorem callback {as : List TypeArg} (has : ∀ a ∈ as, a.type.ReadsBack reg)
    (hnames : ∀ a ∈ as, ∀ n ∈ a.name, isTypeName n = true) (ht : t.ReadsBack reg) :
    (Ty.callback none as t).ReadsBack reg := by
  have htext : ((Ty.callback none as t).doc reg).chars =
      '(' :: (Doc.separated ", " (as.map (TypeArg.doc reg))).chars ++
        ')' :: ' ' :: '-' :: '>' :: ' ' :: (t.doc reg).chars := by
    simp [Ty.doc, Generics.namesDoc, TypeArg.docs_eq_map, chars_append, chars_text]
  have hitems : ∀ a ∈ as, ReadsItem none (a.doc reg).chars a.flattened :=
    fun a ha => (has a ha).item (hnames a ha)
  refine ⟨?_, fun fs cs _ hcs => ?_, fun j hj => ?_, fun hw => ?_⟩
  · rw [htext]
    exact ⟨_, rfl, .inr (.inl rfl)⟩
  · have hblank (items : List TypeArg) : step ⟨fs, .closed items⟩ ' ' =
        some ⟨fs, .closed items⟩ := rfl
    have hdash (items : List TypeArg) : step ⟨fs, .closed items⟩ '-' =
        some ⟨fs, .arrow items⟩ := rfl
    have harrow (items : List TypeArg) : step ⟨fs, .arrow items⟩ '>' =
        some ⟨.result items :: fs, .operand⟩ := rfl
    have hargs := run_parens hitems fs (' ' :: '-' :: '>' :: ' ' :: ((t.doc reg).chars ++ cs))
    have hresult := ht.whole (.result (as.map TypeArg.flattened) :: fs) cs
      (begins_cons (by simp) _ _) hcs
    have hlt : 0 < (Frame.result (as.map TypeArg.flattened)).rank := Nat.one_pos
    calc run ⟨fs, .operand⟩ (((Ty.callback none as t).doc reg).chars ++ cs)
        = run ⟨fs, .closed (as.map TypeArg.flattened)⟩
            (' ' :: '-' :: '>' :: ' ' :: ((t.doc reg).chars ++ cs)) := by
          simpa [htext] using hargs
      _ = run ⟨.result (as.map TypeArg.flattened) :: fs, .after t.flattened⟩ cs := by
          rw [run_of_step (hblank _), run_of_step (hdash _), run_of_step (harrow _), run_blank,
            hresult]
      _ = run ⟨fs, .after (Ty.callback none as t).flattened⟩ cs := by
          rw [run_complete hlt hcs, Ty.flattened, TypeArg.flattenedAll_eq_map]
          rfl
  · cases j <;> cases hj
  · cases hw

end ReadsBack

theorem Readable.readsBack {t : Ty} (h : t.Readable) : t.ReadsBack reg := by
  induction h with
  | @basic n hn =>
      have htext : ((Ty.basic n).doc reg).chars = n.toList := chars_text n
      exact .of_tight (htext ▸ starts_name hn) (htext ▸ readsAs_basic hn)
        fun j => by cases j <;> rfl
  | array _ a ih => exact ih.array a
  | tuple _ hlength ih => exact .tuple ih hlength
  | union _ hlength ih => exact ReadsBack.join (j := .union) ih hlength
  | inter _ hlength ih => exact ReadsBack.join (j := .inter) ih hlength
  | optional _ ih => exact ih.optional
  | callback _ hnames _ has ht => exact .callback has hnames ht
  | generic hb _ hts ih => exact .generic hb ih hts

theorem isText_join {j : Join} {ts : List Ty} (h : ∀ t ∈ ts, IsText (t.doc reg)) :
    IsText ((j.type ts).doc reg) := by
  rw [j.doc_type]
  exact isText_separated _ fun t ht => (isText_wrapIf _ _).mpr (h t ht)

theorem Readable.isText {t : Ty} (h : t.Readable) : IsText (t.doc reg) := by
  induction h with
  | basic hn => exact isText_text _
  | array _ a ih => cases a <;> simp [Ty.doc, access, ih]
  | tuple _ hlength ih =>
      simpa [Ty.doc, Ty.docs_eq_map, Ty.restDoc] using isText_separated ", " ih
  | union _ hlength ih => exact isText_join (j := .union) ih
  | inter _ hlength ih => exact isText_join (j := .inter) ih
  | optional _ ih => simp [Ty.doc, ih]
  | @callback as _ _ _ _ has ht =>
      have hargs : ∀ a ∈ as, IsText (a.doc reg) := by
        rintro ⟨name, t⟩ ha
        have ht : IsText (t.doc reg) := has _ ha
        cases name <;> simp [TypeArg.doc, ht]
      simp [Ty.doc, Generics.namesDoc, TypeArg.docs_eq_map, isText_separated ", " hargs, ht]
  | generic hb _ hts ih =>
      simpa [Ty.doc, Ty.docs_eq_map] using isText_separated ", " ih

end Ty

theorem Printer.printType_eq_iff (p : Printer) {t u : Ty} (ht : t.Readable) (hu : u.Readable) :
    (∃ text, p.printType t = .ok text ∧ read text = some t.flattened) ∧
      (p.printType t = p.printType u ↔ t.flattened = u.flattened) := by
  have hprint {t : Ty} (ht : t.Readable) :
      p.printType t = .ok (String.ofList (t.doc p.registry).chars) :=
    p.print_of_isText ht.isText
  have hread {t : Ty} (ht : t.Readable) :
      read (String.ofList (t.doc p.registry).chars) = some t.flattened := by
    have hback : t.ReadsBack p.registry := ht.readsBack
    have hwhole := hback.whole [] [] nofun ⟨0, rfl, Nat.le_refl 0⟩
    rw [List.append_nil] at hwhole
    rw [TypeReading.read, String.toList_ofList, hwhole]
    rfl
  refine ⟨⟨_, hprint ht, hread ht⟩, fun h => ?_, fun h => ?_⟩
  · rw [hprint ht, hprint hu] at h
    have htext := Except.ok.inj h
    have hsame := hread ht
    rw [htext, hread hu] at hsame
    exact (Option.some.inj hsame).symm
  · rw [hprint ht, hprint hu, ← Ty.chars_flattened ht, ← Ty.chars_flattened hu, h]

theorem Printer.printType_eq_iff_union :
    Printer.printType {} (.union [.basic "a", .union [.basic "b", .optional (.basic "c")]]) =
        Printer.printType {} (.union [.union [.basic "a", .basic "b"], .optional (.basic "c")]) ∧
      Printer.printType {} (.union [.basic "a", .union [.basic "b", .optional (.basic "c")]]) ≠
        Printer.printType {}
          (.optional (.union [.basic "a", .union [.basic "b", .basic "c"]])) := by
  have hpair {t u : Ty} (ht : t.Readable) (hu : u.Readable) : (Ty.union [t, u]).Readable :=
    .union (by simp [ht, hu]) (Nat.le_refl 2)
  have ha : Ty.Readable (.basic "a") := .basic (isTypeName_of_isName (by decide))
  have hb : Ty.Readable (.basic "b") := .basic (isTypeName_of_isName (by decide))
  have hc : Ty.Readable (.basic "c") := .basic (isTypeName_of_isName (by decide))
  have hright := hpair ha (hpair hb hc.optional)
  constructor
  · exact (Printer.printType_eq_iff {} hright (hpair (hpair ha hb) hc.optional)).2.mpr rfl
  · intro heq
    have hflat := (Printer.printType_eq_iff {} hright (hpair ha (hpair hb hc)).optional).2.mp heq
    simp [Ty.flattened] at hflat

end LuauSyntax
