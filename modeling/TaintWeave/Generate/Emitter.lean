import TaintWeave.Text.Blank
import TaintWeave.Text.Lines

/-!
# Emitting code

Generated code is collected line by line. Lines that are emitted stand at the
depth of the current block; definitions are rendered elsewhere and taken over as
they are.

* `Emitter.emit`: a line at the current depth.
* `Emitter.emitDefinition`: a rendered definition after two blank lines.
* `Emitter.code`: the lines so far.
-/

namespace TaintWeave

/-- The lines so far and the current depth. -/
structure Emitter where
  /-- What a line starts with, once per level. -/
  indent : String := "    "
  /-- The number of blocks around the next line. -/
  depth : Nat := 0
  /-- The lines, in order. -/
  lines : List String := []

namespace Emitter

/-- Adds lines as they are. -/
def addLines (e : Emitter) (lines : List String) : Emitter := { e with lines := e.lines ++ lines }

/-- A line at a depth; a blank one is empty. -/
def lineAt (e : Emitter) (code : String) : String :=
  if (Text.stripBlanks code.toList).isEmpty then ""
  else String.join (List.replicate e.depth e.indent) ++ code

/-- Adds a line at the current depth. -/
def emit (e : Emitter) (code : String) : Emitter := e.addLines [e.lineAt code]

/-- Adds the lines of a text as they are, without the line feeds at its end. -/
def emitRaw (e : Emitter) (code : String) : Emitter :=
  e.addLines ((Text.splitLines (Text.dropFinalLineFeeds code.toList)).map String.ofList)

/-- Adds blank lines. -/
def emitBlank (e : Emitter) (count : Nat) : Emitter := e.addLines (List.replicate count "")

/-- Adds a rendered definition after two blank lines. -/
def emitDefinition (e : Emitter) (source : String) : Emitter := (e.emitBlank 2).emitRaw source

/-- Opens a block after a header. -/
def openBlock (e : Emitter) (header : String) : Emitter :=
  let e := e.emit header
  { e with depth := e.depth + 1 }

/-- Closes a block. -/
def closeBlock (e : Emitter) : Emitter := { e with depth := e.depth - 1 }

/-- Adds items, one per line and each with a comma, between an opening and a
    closing line. -/
def emitSequence (e : Emitter) (opening : String) (items : List String) (closing : String) :
    Emitter :=
  (items.foldl (fun e item => e.emit (item ++ ",")) (e.openBlock opening)).closeBlock.emit closing

/-- The number of lines. -/
def lineCount (e : Emitter) : Nat := e.lines.length

/-- The code so far. -/
def code (e : Emitter) : String := String.join (e.lines.map fun line => line ++ "\n")

end Emitter

end TaintWeave
