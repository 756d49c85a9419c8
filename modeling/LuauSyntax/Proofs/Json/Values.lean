import LuauSyntax.Json.Scalar
import Mathlib.Data.Nat.Basic

namespace LuauSyntax

namespace Number

theorem length_hexDigits (n k : Nat) : (hexDigits n k).length = k := by
  induction k generalizing n with
  | zero => rfl
  | succ k ih => simp [hexDigits, ih]

theorem hexValue?_digitChar : ∀ d < 16, hexValue? (Nat.digitChar d) = some d := by
  decide

theorem exists_mapM_hexDigits (n k : Nat) : ∃ vs, (hexDigits n k).mapM hexValue? = some vs ∧
    vs.foldl (fun n v => 16 * n + v) 0 = n % Nat.pow 16 k := by
  induction k generalizing n with
  | zero => exact ⟨[], rfl, (Nat.mod_one n).symm⟩
  | succ k ih =>
      obtain ⟨vs, hvs, hvalue⟩ := ih (n / 16)
      have hdigit := hexValue?_digitChar (n % 16) (Nat.mod_lt n (by decide))
      have hpow : Nat.pow 16 (k + 1) = 16 * Nat.pow 16 k := Nat.pow_succ'
      refine ⟨vs ++ [n % 16], by simp [hexDigits, hvs, hdigit], ?_⟩
      rw [List.foldl_append, hvalue, hpow, Nat.mod_mul, Nat.add_comm]
      rfl

theorem ofHex?_toHex (x : Number) : ofHex? x.toHex = some x := by
  obtain ⟨vs, hvs, hvalue⟩ := exists_mapM_hexDigits x.bits.toNat 16
  have hbits : x.bits.toNat % Nat.pow 16 16 = x.bits.toNat := Nat.mod_eq_of_lt x.bits.toNat_lt
  simp [ofHex?, toHex, length_hexDigits, hvs, hvalue, hbits]

theorem ofJson?_toJson (x : Number) : ofJson? x.toJson = some x :=
  ofHex?_toHex x

end Number

@[simp]
theorem BinaryOp.ofJson?_toJson (op : BinaryOp) : ofJson? op.toJson = some op := by
  cases op <;> rfl

@[simp]
theorem UnaryOp.ofJson?_toJson (op : UnaryOp) : ofJson? op.toJson = some op := by
  cases op <;> rfl

@[simp]
theorem AssignOp.ofJson?_toJson (op : AssignOp) : ofJson? op.toJson = some op := by
  cases op <;> rfl

@[simp]
theorem Access.ofJson?_toJson (a : Access) : ofJson? a.toJson = some a := by
  cases a <;> rfl

@[simp]
theorem Literal.ofJson?_toJson (v : Literal) : ofJson? v.toJson = some v := by
  cases v <;> simp [ofJson?, toJson, Json.tagged, Json.variant?, Json.bool?, Json.str?,
    Number.ofJson?_toJson]

@[simp]
theorem Parameter.ofJson?_toJson (p : Parameter) : ofJson? p.toJson = some p := by
  cases p <;> rfl

@[simp]
theorem GenericName.ofJson?_toJson (n : GenericName) : ofJson? n.toJson = some n := by
  cases n <;> rfl

namespace Json

variable {α : Type}

theorem list?_map {read : Json → Option α} {write : α → Json} {as : List α}
    (h : ∀ a ∈ as, read (write a) = some a) : list? read (.arr (as.map write)) = some as := by
  induction as with
  | nil => rfl
  | cons a as ih =>
      obtain ⟨ha, has⟩ := List.forall_mem_cons.mp h
      have hrest : (as.map write).mapM read = some as := ih has
      simp [list?, ha, hrest]

theorem list?_ofList {read : Json → Option α} {write : α → Json}
    (h : ∀ a, read (write a) = some a) (as : List α) : list? read (.ofList write as) = some as :=
  list?_map fun a _ => h a

theorem option?_eq_some {read : Json → Option α} (hnull : read .null = none) {j : Json} {a : α}
    (h : read j = some a) : option? read j = some (some a) := by
  cases j with
  | null => simp [hnull] at h
  | _ => simp [option?, h]

theorem option?_ofOption {read : Json → Option α} {write : α → Json} (hnull : read .null = none)
    (h : ∀ a, read (write a) = some a) (a : Option α) :
    option? read (.ofOption write a) = some a := by
  cases a with
  | none => rfl
  | some a => exact option?_eq_some hnull (h a)

theorem list?_str (ns : List String) : list? str? (.ofList .str ns) = some ns :=
  list?_ofList (fun n : String => (rfl : str? (.str n) = some n)) ns

theorem option?_str (n : Option String) : option? str? (.ofOption .str n) = some n :=
  option?_ofOption rfl (fun n : String => (rfl : str? (.str n) = some n)) n

theorem depth_le_listDepth {j : Json} {js : List Json} (h : j ∈ js) : j.depth ≤ listDepth js := by
  induction js with
  | nil => simp at h
  | cons i js ih =>
      rw [listDepth]
      rcases List.mem_cons.mp h with rfl | h
      · exact Nat.le_max_left _ _
      · exact Nat.le_trans (ih h) (Nat.le_max_right _ _)

def Recovers (read : Nat → Json → Option α) (j : Json) (a : α) : Prop :=
  ∀ k, j.depth < k → read k j = some a

namespace Recovers

variable {read : Nat → Json → Option α} {write : α → Json}

theorem of_succ {j : Json} {a : α} (h : ∀ k, j.depth ≤ k → read (k + 1) j = some a) :
    Recovers read j a := by
  intro k hk
  obtain ⟨k, rfl⟩ := Nat.exists_eq_add_one_of_ne_zero (Nat.ne_zero_of_lt hk)
  exact h k (Nat.le_of_lt_succ hk)

theorem list {as : List α} (h : ∀ a ∈ as, Recovers read (write a) a) {k : Nat}
    (hk : listDepth (as.map write) < k) : list? (read k) (.arr (as.map write)) = some as := by
  refine list?_map fun a ha => h a ha k ?_
  exact Nat.lt_of_le_of_lt (depth_le_listDepth (List.mem_map_of_mem ha)) hk

theorem wrapped {readAll : Nat → Json → Option (List α)} {key : String}
    (hread : ∀ k j, readAll (k + 1) j = (j.field? key).bind (list? (read k))) {as : List α}
    (h : ∀ a ∈ as, Recovers read (write a) a) :
    Recovers readAll (.wrapped key (as.map write)) as := by
  refine of_succ fun k hk => ?_
  have hfield : (Json.wrapped key (as.map write)).field? key = some (.arr (as.map write)) := by
    simp [Json.wrapped, field?]
  simp only [Json.wrapped, depth, fieldsDepth] at hk
  rw [hread, hfield, Option.bind_some]
  exact list h (by omega)

theorem option (hnull : ∀ k, read k .null = none) {a : Option α}
    (h : ∀ b ∈ a, Recovers read (write b) b) {k : Nat} (hk : (ofOption write a).depth < k) :
    option? (read k) (ofOption write a) = some a := by
  cases a with
  | none => rfl
  | some b => exact option?_eq_some (hnull k) (h b rfl k hk)

end Recovers

end Json

@[simp]
theorem FunctionName.ofJson?_toJson (n : FunctionName) : ofJson? n.toJson = some n := by
  obtain ⟨path, method⟩ := n
  simp [ofJson?, toJson, Json.field?, List.lookup_cons, Json.list?_str, Json.option?_str]

end LuauSyntax
