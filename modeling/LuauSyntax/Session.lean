import LuauSyntax.Hint
import LuauSyntax.Node.Fold
import LuauSyntax.Printer

namespace LuauSyntax

structure Session where
  chunk : Chunk := ⟨[]⟩
  saves : List (String × Chunk) := []
  printer : Printer := {}

inductive Command where
  | push (stmt : Stmt)
  | insert (pos : Nat) (stmt : Stmt)
  | remove (pos : Nat)
  | transform (transform : Transform Id)
  | save (name : String)
  | load (name : String)
  | compare (name : String)
  | register (kind : String) (renderer : CustomRenderer)
  | restyle (style : Style)

inductive Refusal where
  | outOfRange
  | noSave
deriving DecidableEq, Repr

structure Comparison where
  equal : Bool
  sameStructure : Bool
deriving DecidableEq, Repr

namespace Session

def setBlock (s : Session) (b : Block) : Session := { s with chunk := ⟨b⟩ }

def saved? (s : Session) (name : String) : Except Refusal Chunk :=
  match List.lookup name s.saves with
  | some c => .ok c
  | none => .error .noSave

def step (s : Session) : Command → Except Refusal (Session × Option Comparison)
  | .push st => .ok (s.setBlock (s.chunk.block ++ [st]), none)
  | .insert pos st =>
      if pos ≤ s.chunk.block.length then .ok (s.setBlock (s.chunk.block.insertIdx pos st), none)
      else .error .outOfRange
  | .remove pos =>
      if pos < s.chunk.block.length then .ok (s.setBlock (s.chunk.block.eraseIdx pos), none)
      else .error .outOfRange
  | .transform f => .ok ({ s with chunk := (s.chunk.transform f).run }, none)
  | .save name => .ok ({ s with saves := (name, s.chunk) :: s.saves }, none)
  | .load name => (s.saved? name).map fun c => ({ s with chunk := c }, none)
  | .compare name =>
      (s.saved? name).map fun c =>
        (s, some ⟨s.chunk.equals c, s.chunk.sameStructure c⟩)
  | .register kind r =>
      .ok ({ s with printer.registry := s.printer.registry.register kind r }, none)
  | .restyle style => .ok ({ s with printer.style := style }, none)

def output (s : Session) : Except Violation String := s.printer.printChunk s.chunk

def size (s : Session) : Nat := (Node.chunk s.chunk).size

end Session

end LuauSyntax
