import LuauSyntax.Proofs.Node.Refill
import LuauSyntax.Proofs.Node.Stops

namespace LuauSyntax.Node

variable {α : Type}

theorem filterMap_stops_eq {note : Stop → Option α} {own : Node → Option α}
    (hown : ∀ k : Node, k.stopsAt.filterMap note = (own k).toList) (n : Node) :
    n.stops.filterMap note = (own n).toList ++ n.children.flatMap (·.stops.filterMap note) := by
  have hstops (k : Node) : k.stops.filterMap note = k.preorder.flatMap fun k => (own k).toList := by
    simp only [stops_eq, List.filterMap_flatMap, hown]
  simp only [hstops]
  rw [preorder_eq, List.flatMap_cons, List.flatMap_assoc]

theorem own_eq_of_refill_eq {own : Node → Option α}
    (hown : ∀ k a, own k = some a → k.refill = pure k) {n n' : Node} (h : n.refill = n'.refill) :
    own n = own n' := by
  have hsame {k k' : Node} (hk : k.refill = pure k) (hkk : k.refill = k'.refill) : k = k' := by
    have hfill := k'.refill_children
    rw [← hkk, hk, Refill.pure_eq_some] at hfill
    exact hfill.1
  refine Option.ext fun a => ⟨fun ha => ?_, fun ha => ?_⟩
  · rwa [← hsame (hown n a ha) h]
  · rwa [← hsame (hown n' a ha) h.symm]

def literal? : Node → Option Literal
  | .expr (.literal v) => some v
  | _ => none

theorem literal?_eq_some_iff {n : Node} {v : Literal} :
    n.literal? = some v ↔ n = .expr (.literal v) := by
  constructor
  · intro h
    unfold literal? at h
    split at h
    · rw [Option.some.inj h]
    · cases h
  · rintro rfl
    rfl

theorem filterMap_literal?_stopsAt (n : Node) :
    n.stopsAt.filterMap Stop.literal? = n.literal?.toList := by
  cases n with
  | expr e => cases e <;> rfl
  | _ => rfl

theorem literals_eq (n : Node) :
    n.literals = n.literal?.toList ++ n.children.flatMap literals :=
  filterMap_stops_eq filterMap_literal?_stopsAt n

theorem literal?_eq_of_refill_eq {n n' : Node} (h : n.refill = n'.refill) :
    n.literal? = n'.literal? := by
  refine own_eq_of_refill_eq (fun k v hk => ?_) h
  rw [literal?_eq_some_iff.mp hk]
  rfl

def symbol? : Node → Option String
  | .expr (.symbol n) => some n
  | _ => none

theorem symbol?_eq_some_iff {n : Node} {name : String} :
    n.symbol? = some name ↔ n = .expr (.symbol name) := by
  constructor
  · intro h
    unfold symbol? at h
    split at h
    · rw [Option.some.inj h]
    · cases h
  · rintro rfl
    rfl

theorem filterMap_symbol?_stopsAt (n : Node) :
    n.stopsAt.filterMap Stop.symbol? = n.symbol?.toList := by
  cases n with
  | expr e => cases e <;> rfl
  | _ => rfl

theorem filterMap_symbol?_flatMap_stopsAt (ns : List Node) :
    (ns.flatMap stopsAt).filterMap Stop.symbol? = ns.filterMap symbol? := by
  rw [List.filterMap_flatMap, List.filterMap_eq_flatMap_toList symbol?]
  simp only [filterMap_symbol?_stopsAt]

theorem mem_symbols_iff {n : Node} {name : String} :
    name ∈ n.symbols ↔ .expr (.symbol name) ∈ n.preorder := by
  rw [symbols, stops_eq, filterMap_symbol?_flatMap_stopsAt]
  simp [symbol?_eq_some_iff]

theorem symbols_eq (n : Node) :
    n.symbols = n.symbol?.toList ++ n.children.flatMap symbols :=
  filterMap_stops_eq filterMap_symbol?_stopsAt n

theorem symbol?_eq_of_refill_eq {n n' : Node} (h : n.refill = n'.refill) :
    n.symbol? = n'.symbol? := by
  refine own_eq_of_refill_eq (fun k name hk => ?_) h
  rw [symbol?_eq_some_iff.mp hk]
  rfl

end LuauSyntax.Node
