import LuauSyntax.Doc.Tree

namespace LuauSyntax

structure Style where
  indent : String := "  "
  trailingNewline : Bool := true
deriving DecidableEq, Repr

namespace Style

def ofIndent (indent : String) : Style := { indent }

def trimNewlines (text : String) : String :=
  String.ofList (text.toList.reverse.dropWhile (· = '\n')).reverse

def finish (style : Style) (text : String) : String :=
  if style.trailingNewline then text else trimNewlines text

end Style

inductive Level where
  | trace
  | debug
  | error
deriving DecidableEq, Repr

def Level.name : Level → String
  | .trace => "TRACE"
  | .debug => "DEBUG"
  | .error => "ERROR"

inductive Event where
  | started (statements : Nat)
  | custom (kind : String)
  | finished (bytes : Nat)
  | aborted (violation : String)
deriving DecidableEq, Repr

namespace Event

def level : Event → Level
  | .started _ | .finished _ => .debug
  | .custom _ => .trace
  | .aborted _ => .error

def message : Event → String
  | .started _ => "rendering chunk"
  | .custom _ => "rendering custom node"
  | .finished _ => "rendered chunk"
  | .aborted _ => "render aborted"

end Event

structure Work where
  canvas : Canvas
  events : List Event := []

abbrev Steps := ExceptT Violation (StateM Work)

def Steps.log (e : Event) : Steps Unit :=
  modify fun w => { w with events := w.events ++ [e] }

def Piece.perform : Piece → Steps Unit
  | .custom kind => Steps.log (.custom kind)
  | .fail v => do
      Steps.log (.aborted v.message)
      throw v
  | p => modify fun w => { w with canvas := p.draw w.canvas }

def Doc.perform (d : Doc) : Steps Unit :=
  d.forM Piece.perform

structure Printer where
  style : Style := {}
  registry : Registry := []

namespace Printer

def print (p : Printer) (d : Doc) : Except Violation String :=
  match d.violation? with
  | some v => .error v
  | none => .ok (d.draw (.ofUnit p.style.indent)).output

def printExpr (p : Printer) (e : Expr) : Except Violation String :=
  p.print (e.doc p.registry)

def printType (p : Printer) (t : Ty) : Except Violation String :=
  p.print (t.doc p.registry)

def printChunk (p : Printer) (c : Chunk) : Except Violation String :=
  (p.print (Stmt.blockDoc p.registry c.block)).map p.style.finish

def perform (p : Printer) (c : Chunk) : Steps String := do
  Steps.log (.started c.block.length)
  (Stmt.blockDoc p.registry c.block).perform
  let text := p.style.finish (← get).canvas.output
  Steps.log (.finished text.utf8ByteSize)
  return text

def log (p : Printer) (c : Chunk) : List Event :=
  ((p.perform c).run { canvas := .ofUnit p.style.indent }).2.events

end Printer

structure Writer where
  language : String
  extension : String
  write : Chunk → Except Violation String

def Writer.luau : Writer where
  language := "luau"
  extension := "luau"
  write := Printer.printChunk {}

end LuauSyntax
