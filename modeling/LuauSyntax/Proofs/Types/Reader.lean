import LuauSyntax.Proofs.Types.Flattened

namespace LuauSyntax

namespace TypeReading

open Token (isTypeMark isTypeName)

inductive Frame where
  | array (access : Option Access)
  | list (base : Option String) (done : List TypeArg) (name : Option String)
  | members (join : Join) (done : List Ty)
  | result (args : List TypeArg)

inductive Focus where
  | operand
  | word (chars : List Char)
  | after (type : Ty)
  | closed (items : List TypeArg)
  | arrow (items : List TypeArg)

structure State where
  stack : List Frame
  focus : Focus

def Frame.rank : Frame → Nat
  | .members j _ => j.rank
  | .result _ => 1
  | _ => 0

def Frame.complete (f : Frame) (v : Ty) : Ty :=
  match f with
  | .members j ts => j.type (ts ++ [v])
  | .result as => .callback none as v
  | _ => v

def close (level : Nat) : List Frame → Ty → List Frame × Ty
  | [], v => ([], v)
  | f :: fs, v => if level < f.rank then close level fs (f.complete v) else (f :: fs, v)

def grouped : List TypeArg → Option Ty
  | [⟨none, t⟩] => some t
  | as => if as.all (·.name.isNone) then some (.tuple (as.map TypeArg.type) none) else none

def Focus.value? : Focus → Option Ty
  | .word cs => some (.basic (String.ofList cs))
  | .after v => some v
  | .closed as => grouped as
  | _ => none

def operand (fs : List Frame) (c : Char) : Option State :=
  match c, fs with
  | ' ', fs => some ⟨fs, .operand⟩
  | '(', fs => some ⟨.list none [] none :: fs, .operand⟩
  | ')', .list none [] none :: fs => some ⟨fs, .closed []⟩
  | '\x7b', fs => some ⟨.array none :: fs, .operand⟩
  | c, fs => if isTypeMark c then none else some ⟨fs, .word [c]⟩

def joined (j : Join) : List Frame × Ty → State
  | (.members k ts :: fs, v) =>
      if k = j then ⟨.members j (ts ++ [v]) :: fs, .operand⟩
      else ⟨.members j [v] :: .members k ts :: fs, .operand⟩
  | (fs, v) => ⟨.members j [v] :: fs, .operand⟩

def listed (base : Option String) (items : List TypeArg) (fs : List Frame) : Char → Option State :=
  match base with
  | none => fun
    | ')' => some ⟨fs, .closed items⟩
    | _ => none
  | some b => fun
    | '>' => some ⟨fs, .after (.generic b (items.map TypeArg.type))⟩
    | _ => none

def ended : List Frame × Ty → Char → Option State
  | (.list base done name :: fs, v), ',' =>
      some ⟨.list base (done ++ [⟨name, v⟩]) none :: fs, .operand⟩
  | (.list base done name :: fs, v), c => listed base (done ++ [⟨name, v⟩]) fs c
  | (.array a :: fs, v), '\x7d' => some ⟨fs, .after (.array v a)⟩
  | _, _ => none

def accessed (c : Char) : List Frame × Ty → Option State
  | (.array none :: fs, .basic n) =>
      if n = Access.read.token then operand (.array (some .read) :: fs) c
      else if n = Access.write.token then operand (.array (some .write) :: fs) c
      else none
  | _ => none

def continued (fs : List Frame) (v : Ty) (c : Char) : Option State :=
  match c with
  | ' ' => some ⟨fs, .after v⟩
  | '?' => some ⟨fs, .after (.optional v)⟩
  | '|' => some (joined .union (close 1 fs v))
  | '&' => some (joined .inter (close 2 fs v))
  | ',' | ')' | '>' | '\x7d' => ended (close 0 fs v) c
  | _ => accessed c (fs, v)

def named (cs : List Char) : List Frame → Option State
  | .list none done none :: fs =>
      some ⟨.list none done (some (String.ofList cs)) :: fs, .operand⟩
  | _ => none

def worded (fs : List Frame) (cs : List Char) (c : Char) : Option State :=
  if isTypeMark c = false then some ⟨fs, .word (cs ++ [c])⟩
  else if c = '<' then some ⟨.list (some (String.ofList cs)) [] none :: fs, .operand⟩
  else if c = ':' then named cs fs
  else continued fs (.basic (String.ofList cs)) c

def step (s : State) (c : Char) : Option State :=
  match s.focus with
  | .operand => operand s.stack c
  | .word cs => worded s.stack cs c
  | .after v => continued s.stack v c
  | .closed as =>
      if c = ' ' then some s
      else if c = '-' then some ⟨s.stack, .arrow as⟩
      else (grouped as).bind fun v => continued s.stack v c
  | .arrow as => if c = '>' then some ⟨.result as :: s.stack, .operand⟩ else none

def finish (s : State) : Option Ty :=
  s.focus.value?.bind fun v =>
    match close 0 s.stack v with
    | ([], v) => some v
    | _ => none

def run (s : State) (cs : List Char) : Option Ty :=
  (cs.foldlM step s).bind finish

def read (text : String) : Option Ty :=
  run ⟨[], .operand⟩ text.toList

theorem run_nil (s : State) : run s [] = finish s := rfl

theorem run_cons (s : State) (c : Char) (cs : List Char) :
    run s (c :: cs) = (step s c).bind fun s => run s cs := by
  unfold run
  rw [List.foldlM_cons]
  cases step s c <;> rfl

theorem run_of_step {s s' : State} {c : Char} (h : step s c = some s') (cs : List Char) :
    run s (c :: cs) = run s' cs := by
  rw [run_cons, h]
  rfl

theorem run_blank (fs : List Frame) (cs : List Char) :
    run ⟨fs, .operand⟩ (' ' :: cs) = run ⟨fs, .operand⟩ cs :=
  run_of_step rfl cs

theorem run_after_blank (fs : List Frame) (v : Ty) (cs : List Char) :
    run ⟨fs, .after v⟩ (' ' :: cs) = run ⟨fs, .after v⟩ cs :=
  run_of_step rfl cs

theorem run_open (fs : List Frame) (cs : List Char) :
    run ⟨fs, .operand⟩ ('(' :: cs) = run ⟨.list none [] none :: fs, .operand⟩ cs :=
  run_of_step rfl cs

def upcoming : List Char → Option Nat
  | [] | ',' :: _ | ')' :: _ | '>' :: _ | ' ' :: '\x7d' :: _ => some 0
  | ' ' :: '|' :: _ => some 1
  | ' ' :: '&' :: _ => some 2
  | '?' :: _ => some 3
  | _ => none

def Follows (level : Nat) (cs : List Char) : Prop :=
  ∃ k ∈ upcoming cs, k ≤ level

theorem Follows.mono {k l : Nat} {cs : List Char} (h : Follows k cs) (hkl : k ≤ l) :
    Follows l cs := by
  obtain ⟨m, hm, hle⟩ := h
  exact ⟨m, hm, Nat.le_trans hle hkl⟩

theorem step_of_value? {focus : Focus} {v : Ty} (h : focus.value? = some v) {c : Char}
    (hc : c ∈ [',', ')', '>', '\x7d', '|', '&', '?']) (fs : List Frame) :
    step ⟨fs, focus⟩ c = continued fs v c := by
  simp only [List.mem_cons, List.not_mem_nil, or_false] at hc
  cases focus with
  | operand | arrow _ => cases h
  | after w =>
      obtain rfl : w = v := Option.some.inj h
      rfl
  | word cs =>
      obtain rfl : Ty.basic (String.ofList cs) = v := Option.some.inj h
      rcases hc with rfl | rfl | rfl | rfl | rfl | rfl | rfl <;> rfl
  | closed as =>
      have has : grouped as = some v := h
      rcases hc with rfl | rfl | rfl | rfl | rfl | rfl | rfl <;> simp [step, has]

theorem exists_step_blank {focus : Focus} {v : Ty} (h : focus.value? = some v) (fs : List Frame) :
    ∃ focus', focus'.value? = some v ∧ step ⟨fs, focus⟩ ' ' = some ⟨fs, focus'⟩ := by
  cases focus with
  | operand | arrow _ => cases h
  | after w => exact ⟨.after w, h, rfl⟩
  | word cs => exact ⟨.after _, h, rfl⟩
  | closed as => exact ⟨.closed as, h, rfl⟩

theorem run_of_value? {focus : Focus} {v : Ty} (h : focus.value? = some v) {cs : List Char}
    (hcs : Follows 3 cs) (fs : List Frame) : run ⟨fs, focus⟩ cs = run ⟨fs, .after v⟩ cs := by
  have hmark {c : Char} (hc : c ∈ [',', ')', '>', '\x7d', '|', '&', '?']) (rest : List Char) :
      run ⟨fs, focus⟩ (c :: rest) = run ⟨fs, .after v⟩ (c :: rest) := by
    rw [run_cons, run_cons, step_of_value? h hc, step_of_value? rfl hc]
  have hblank {c : Char} (hc : c ∈ [',', ')', '>', '\x7d', '|', '&', '?']) (rest : List Char) :
      run ⟨fs, focus⟩ (' ' :: c :: rest) = run ⟨fs, .after v⟩ (' ' :: c :: rest) := by
    obtain ⟨focus', hvalue, hstep⟩ := exists_step_blank h fs
    rw [run_of_step hstep, run_after_blank, run_cons, run_cons, step_of_value? hvalue hc,
      step_of_value? rfl hc]
  obtain ⟨k, hk, -⟩ := hcs
  unfold upcoming at hk
  split at hk
  · rw [run_nil, run_nil, finish, h]
    rfl
  iterate 3 exact hmark (by decide) _
  iterate 3 exact hblank (by decide) _
  · exact hmark (by decide) _
  · cases hk

theorem close_of_lt {level : Nat} {f : Frame} (h : level < f.rank) (fs : List Frame) (v : Ty) :
    close level (f :: fs) v = close level fs (f.complete v) := by
  rw [close, if_pos h]

theorem close_of_le {level : Nat} {fs : List Frame} (h : ∀ f ∈ fs.head?, f.rank ≤ level) (v : Ty) :
    close level fs v = (fs, v) := by
  cases fs with
  | nil => rfl
  | cons f fs => rw [close, if_neg (Nat.not_lt.mpr (h f rfl))]

theorem run_complete {f : Frame} {level : Nat} (hf : level < f.rank) {cs : List Char}
    (hcs : Follows level cs) (fs : List Frame) (v : Ty) :
    run ⟨f :: fs, .after v⟩ cs = run ⟨fs, .after (f.complete v)⟩ cs := by
  have hrank : f.rank ≤ 2 := by
    match f with
    | .members .union _ | .result _ => exact Nat.le_succ 1
    | .members .inter _ => exact Nat.le_refl 2
    | .array _ | .list _ _ _ => exact Nat.zero_le 2
  have hclose {k : Nat} (hk : k ≤ level) : close k (f :: fs) v = close k fs (f.complete v) :=
    close_of_lt (Nat.lt_of_le_of_lt hk hf) fs v
  have hend (c : Char) : ended (close 0 (f :: fs) v) c = ended (close 0 fs (f.complete v)) c := by
    rw [hclose (Nat.zero_le _)]
  have hmark (c : Char) (h : continued (f :: fs) v c = continued fs (f.complete v) c)
      (rest : List Char) :
      run ⟨f :: fs, .after v⟩ (c :: rest) = run ⟨fs, .after (f.complete v)⟩ (c :: rest) := by
    rw [run_cons, run_cons]
    exact congrArg (Option.bind · _) h
  have hblank (c : Char) (h : continued (f :: fs) v c = continued fs (f.complete v) c)
      (rest : List Char) : run ⟨f :: fs, .after v⟩ (' ' :: c :: rest) =
        run ⟨fs, .after (f.complete v)⟩ (' ' :: c :: rest) := by
    rw [run_after_blank, run_after_blank]
    exact hmark c h rest
  obtain ⟨k, hk, hle⟩ := hcs
  unfold upcoming at hk
  split at hk
  · simp [run_nil, finish, Focus.value?, hclose (Nat.zero_le _)]
  · exact hmark ',' (hend ',') _
  · exact hmark ')' (hend ')') _
  · exact hmark '>' (hend '>') _
  · exact hblank '\x7d' (hend '\x7d') _
  · obtain rfl : 1 = k := Option.some.inj hk
    exact hblank '|' (congrArg (fun r => some (joined .union r)) (hclose hle)) _
  · -- No frame has a rank above two, so these last two marks are not below it.
    obtain rfl : 2 = k := Option.some.inj hk
    omega
  · obtain rfl : 3 = k := Option.some.inj hk
    omega
  · cases hk

theorem operand_of_not_mark {c : Char} (h : isTypeMark c = false) (fs : List Frame) :
    operand fs c = some ⟨fs, .word [c]⟩ := by
  unfold operand
  split
  iterate 4 exact absurd h (by decide)
  rw [h]
  rfl

theorem run_word {w : List Char} (hw : ∀ c ∈ w, isTypeMark c = false) (v : List Char)
    (fs : List Frame) (cs : List Char) :
    run ⟨fs, .word v⟩ (w ++ cs) = run ⟨fs, .word (v ++ w)⟩ cs := by
  induction w generalizing v with
  | nil => simp
  | cons c w ih =>
      obtain ⟨hc, hw⟩ := List.forall_mem_cons.mp hw
      have hstep : step ⟨fs, .word v⟩ c = some ⟨fs, .word (v ++ [c])⟩ := if_pos hc
      rw [List.cons_append, run_of_step hstep, ih hw, List.append_assoc, List.singleton_append]

theorem run_name {n : String} (hn : isTypeName n = true) (fs : List Frame) (cs : List Char) :
    run ⟨fs, .operand⟩ (n.toList ++ cs) = run ⟨fs, .word n.toList⟩ cs := by
  obtain ⟨hne, hchars⟩ := (Token.isTypeName_iff n).mp hn
  cases hlist : n.toList with
  | nil => exact absurd (by simpa using hlist) hne
  | cons c w =>
      rw [hlist] at hchars
      obtain ⟨hc, hw⟩ := List.forall_mem_cons.mp hchars
      have hstep : step ⟨fs, .operand⟩ c = some ⟨fs, .word [c]⟩ := operand_of_not_mark hc fs
      rw [List.cons_append, run_of_step hstep, run_word hw]
      rfl

end TypeReading

end LuauSyntax
