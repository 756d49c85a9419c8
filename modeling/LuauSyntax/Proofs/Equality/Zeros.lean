import LuauSyntax.Printer
import LuauSyntax.Proofs.Equality.Tree
import LuauSyntax.Proofs.Hint.Literals

namespace LuauSyntax

namespace Number

theorem eq_of_isZero {x y : Number} (hx : x.isZero) (hy : y.isZero)
    (h : x.isNegative = y.isNegative) : x = y := by
  obtain ⟨a⟩ := x
  obtain ⟨b⟩ := y
  simp only [isZero, magnitude, isNegative, beq_iff_eq, decide_eq_decide, Nat.pow_eq,
    Nat.reducePow] at hx hy h
  have ha := a.toNat_lt
  have hb := b.toNat_lt
  have hab : a.toNat = b.toNat := by omega
  rw [UInt64.toNat_inj.1 hab]

theorem eq_or_isZero_of_equals {x y : Number} (h : x.equals y) : x = y ∨ x.isZero ∧ y.isZero := by
  simp only [equals, Bool.and_eq_true, Bool.or_eq_true, beq_iff_eq] at h
  exact h.2

def zeroSign? (x : Number) : Option Bool :=
  if x.isZero then some x.isNegative else none

end Number

def Literal.zeroSign? : Literal → Option Bool
  | .number x => x.zeroSign?
  | _ => none

namespace Node

def zeroSigns (n : Node) : List Bool :=
  n.literals.filterMap Literal.zeroSign?

def zeroSign? : Node → Option Bool
  | .expr (.literal v) => v.zeroSign?
  | _ => none

theorem zeroSign?_eq (n : Node) : n.zeroSign? = n.literal?.bind Literal.zeroSign? := by
  cases n with
  | expr e => cases e <;> rfl
  | _ => rfl

theorem zeroSigns_eq (n : Node) :
    n.zeroSigns = n.zeroSign?.toList ++ n.children.flatMap zeroSigns := by
  rw [zeroSigns, literals_eq, List.filterMap_append, List.filterMap_flatMap, zeroSign?_eq]
  refine congrArg (· ++ n.children.flatMap zeroSigns) ?_
  cases n.literal? with
  | none => rfl
  | some v => cases hv : v.zeroSign? <;> simp [hv]

theorem zeroSign?_eq_of_refill_eq {n n' : Node} (h : n.refill = n'.refill) :
    n.zeroSign? = n'.zeroSign? := by
  rw [zeroSign?_eq, n'.zeroSign?_eq, literal?_eq_of_refill_eq h]

theorem eq_of_forall₂_equal {cs cs' : List Node} {rest rest' : List Bool}
    (h : List.Forall₂ Equal cs cs')
    (hcs : ∀ c ∈ cs, ∀ {c' : Node} (rest rest' : List Bool), c.Equal c' →
      c.zeroSigns ++ rest = c'.zeroSigns ++ rest' → c = c' ∧ rest = rest')
    (hz : cs.flatMap zeroSigns ++ rest = cs'.flatMap zeroSigns ++ rest') :
    cs = cs' ∧ rest = rest' := by
  induction h with
  | nil => exact ⟨rfl, hz⟩
  | @cons c c' cs cs' hc _ ih =>
      simp only [List.flatMap_cons, List.append_assoc] at hz
      obtain ⟨rfl, htail⟩ := hcs c (by simp) _ _ hc hz
      obtain ⟨rfl, hrest⟩ := ih (fun d hd => hcs d (by simp [hd])) htail
      exact ⟨rfl, hrest⟩

theorem eq_of_equal {n n' : Node} (rest rest' : List Bool) (h : n.Equal n')
    (hz : n.zeroSigns ++ rest = n'.zeroSigns ++ rest') : n = n' ∧ rest = rest' := by
  -- With what follows left open, so that the signs of the children can be told apart.
  induction n using inductionOn generalizing n' rest rest' with
  | step n ih =>
      rcases refill_eq_of_equals h with ⟨x, y, rfl, rfl, hxy⟩ | ⟨hr, hc⟩
      · simp only [zeroSigns_eq, children, Expr.children, zeroSign?, Literal.zeroSign?,
          Number.zeroSign?] at hz
        rcases Number.eq_or_isZero_of_equals hxy with rfl | ⟨hx, hy⟩
        · simpa using hz
        · obtain ⟨hsign, hrest⟩ : x.isNegative = y.isNegative ∧ rest = rest' := by
            simpa [hx, hy] using hz
          rw [Number.eq_of_isZero hx hy hsign]
          exact ⟨rfl, hrest⟩
      · rw [zeroSigns_eq, n'.zeroSigns_eq, zeroSign?_eq_of_refill_eq hr, List.append_assoc,
          List.append_assoc, List.append_cancel_left_eq] at hz
        obtain ⟨hchildren, hrest⟩ := eq_of_forall₂_equal hc ih hz
        exact ⟨eq_of_refill_eq hr hchildren, hrest⟩

theorem zeroSigns_stripped (n : Node) : n.stripped.zeroSigns = n.zeroSigns := by
  rw [zeroSigns, literals_stripped, zeroSigns]

end Node

def Transform.unsignZeros : Transform Id where
  rebuiltExpr := fun
    | .literal (.number x) => .literal (.number (if x.isZero then ⟨0⟩ else x))
    | e => e

theorem Transform.descends_unsignZeros : unsignZeros.Descends :=
  ⟨fun _ => rfl, fun _ => rfl, fun _ => rfl, fun _ => rfl⟩

theorem Number.unsigned_eq {x y : Number} (h : x.equals y) :
    (if x.isZero then ⟨0⟩ else x) = if y.isZero then ⟨0⟩ else y := by
  rcases eq_or_isZero_of_equals h with rfl | ⟨hx, hy⟩
  · rfl
  · rw [if_pos hx, if_pos hy]

theorem Node.map_eq_of_forall₂ {α : Type} {f : Node → α} {cs cs' : List Node}
    (h : List.Forall₂ Equal cs cs') (hcs : ∀ c ∈ cs, ∀ {c'}, Equal c c' → f c = f c') :
    cs.map f = cs'.map f := by
  induction h with
  | nil => rfl
  | cons hc _ ih => simp [hcs _ (by simp) hc, ih fun d hd => hcs d (by simp [hd])]

theorem Node.transform_unsignZeros_eq {n n' : Node} (h : n.Equal n') :
    Id.run (n.transform .unsignZeros) = Id.run (n'.transform .unsignZeros) := by
  induction n using inductionOn generalizing n' with
  | step n ih =>
      rcases refill_eq_of_equals h with ⟨x, y, rfl, rfl, hxy⟩ | ⟨hr, hc⟩
      · exact congrArg (fun z => Node.expr (.literal (.number z))) (Number.unsigned_eq hxy)
      · obtain ⟨m, hm, hmc, hmr⟩ := exists_transform_eq_of_keep (n := n)
          Transform.descends_unsignZeros (fun _ => rfl) fun _ _ => rfl
        obtain ⟨m', hm', hmc', hmr'⟩ := exists_transform_eq_of_keep (n := n')
          Transform.descends_unsignZeros (fun _ => rfl) fun _ _ => rfl
        have hchildren : m.children = m'.children := by
          rw [hmc, hmc', map_eq_of_forall₂ hc ih]
        rw [hm, hm', eq_of_refill_eq (by rw [hmr, hr, hmr']) hchildren]

theorem Printer.printChunk_of_sameStructure (p : Printer) {c c' : Chunk}
    (h : c.sameStructure c') :
    ((Node.chunk c).zeroSigns = (Node.chunk c').zeroSigns →
        p.printChunk (Id.run (c.transform .strip)) = p.printChunk (Id.run (c'.transform .strip))) ∧
      p.printChunk (Id.run ((Id.run (c.transform .strip)).transform .unsignZeros)) =
        p.printChunk (Id.run ((Id.run (c'.transform .strip)).transform .unsignZeros)) := by
  have hequal : (Node.chunk c).stripped.Equal (Node.chunk c').stripped := h
  constructor
  · intro hz
    rw [← Node.zeroSigns_stripped, ← (Node.chunk c').zeroSigns_stripped] at hz
    have hc := (Node.eq_of_equal [] [] hequal (by simpa using hz)).1
    rw [Chunk.stripped_chunk, Chunk.stripped_chunk, Node.chunk.injEq] at hc
    rw [hc]
  · have hc := Node.transform_unsignZeros_eq hequal
    rw [Chunk.stripped_chunk, Chunk.stripped_chunk] at hc
    exact congrArg p.printChunk (Node.chunk.inj hc)

theorem Printer.printChunk_of_sameStructure_table :
    Printer.printChunk {} (Id.run (Chunk.transform .strip
        ⟨[.comment "first", .returns [.table ⟨[.positional (.literal (.number ⟨0⟩))], true⟩]]⟩)) =
      Printer.printChunk {} (Id.run (Chunk.transform .strip
        ⟨[.returns [.table ⟨[.positional (.literal (.number ⟨0⟩))], false⟩], .comment "last"]⟩)) :=
  (Printer.printChunk_of_sameStructure {} (by decide +kernel)).1 (by decide +kernel)

theorem Printer.printChunk_zeros :
    Chunk.sameStructure ⟨[.returns [.literal (.number ⟨0⟩)]]⟩
        ⟨[.returns [.literal (.number ⟨0x8000000000000000⟩)]]⟩ ∧
      Printer.printChunk {} (Id.run (Chunk.transform .strip
        ⟨[.returns [.literal (.number ⟨0⟩)]]⟩)) = .ok "return 0\n" ∧
      Printer.printChunk {} (Id.run (Chunk.transform .strip
        ⟨[.returns [.literal (.number ⟨0x8000000000000000⟩)]]⟩)) = .ok "return -0\n" := by
  decide +kernel

end LuauSyntax
