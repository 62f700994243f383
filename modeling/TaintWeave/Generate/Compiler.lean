import TaintWeave.Failure
import TaintWeave.Text.Identifier
import TaintWeave.Text.Lines

/-!
# Compilers

Generated code is only given out if it compiles. The compiler is that of the
language of the code and no part of this library: it is a parameter wherever
code is generated. When a program runs without one, names are looked at in its
place; that is less than a compiler does.

* `Compiler`: accepts a text, or says what is wrong with it.
* `CompileError.failure`: how generation fails then.
* `Compiler.ofNames`: looks at the names in a text.
-/

namespace TaintWeave

/-- Why a text does not compile. -/
inductive CompileError where
  /-- It is not well-formed. The report follows the words that say so. -/
  | illFormed (report : String)
  /-- The compiler itself fails. -/
  | fault (f : Fault)
  deriving DecidableEq, Repr

/-- The failure of the generation of code that does not compile. -/
def CompileError.failure : CompileError → Failure
  | illFormed report => .diagnostic (.invalidGeneratedCode report)
  | fault f => .fault f

/-- What accepts a text, or says why it does not compile. -/
abbrev Compiler := String → Except CompileError Unit

namespace Compiler

/-! ## Names -/

/-- The words that cannot be names in generated code. -/
def keywords : List String :=
  ["False", "None", "True", "and", "as", "assert", "async", "await", "break", "class",
   "continue", "def", "del", "elif", "else", "except", "finally", "for", "from", "global",
   "if", "import", "in", "is", "lambda", "nonlocal", "not", "or", "pass", "raise", "return",
   "try", "while", "with", "yield"]

/-- The constant that cannot be defined, though it is not a keyword. -/
def fixedName : String := "__debug__"

/-- Whether a blank may stand between the parts of a module name. -/
def isGap (c : Char) : Bool := c = ' ' || c = '\t' || c = '\x0c'

/-- The characters without gaps at both ends. -/
def trimGaps (cs : List Char) : List Char :=
  ((cs.dropWhile isGap).reverse.dropWhile isGap).reverse

/-- The parts of a text between dots. -/
def splitDots : List Char → List (List Char)
  | [] => [[]]
  | c :: cs =>
    if c = '.' then [] :: splitDots cs
    else match splitDots cs with
      | [] => [[c]]
      | part :: parts => (c :: part) :: parts

/-- Whether the characters form a name that is not a keyword. -/
def isName (cs : List Char) : Bool :=
  Text.isIdentifier cs && !keywords.contains (String.ofList cs)

/-- Whether a module can be imported from: dots alone, or names joined by dots,
    after any number of leading dots. The module of language features cannot, so
    late in the code. -/
def isImportable (module : List Char) : Bool :=
  let parts := (splitDots module).map trimGaps
  let names := parts.dropWhile List.isEmpty
  if names.isEmpty then 1 < parts.length
  else names.all isName && names != ["__future__".toList]

/-- Whether a function can be defined under a name of a mock. -/
def isDefinable (name : String) : Bool := !keywords.contains name && name != fixedName

/-! ## Lines -/

/-- What stands before the last occurrence of a mark. -/
def beforeLast (mark : List Char) : List Char → Option (List Char)
  | [] => none
  | c :: cs =>
    match beforeLast mark cs with
    | some front => some (c :: front)
    | none => if mark.isPrefixOf (c :: cs) then some [] else none

/-- Whether the names in a line may stand there: that of a function that it
    defines, or that of a module that it imports from. -/
def acceptsLine (line : List Char) : Bool :=
  if "def ".toList.isPrefixOf line then
    isDefinable (String.ofList ((line.drop 4).takeWhile (· != '(')))
  else if "from ".toList.isPrefixOf line then
    ((beforeLast " import ".toList (line.drop 5)).map isImportable).getD false
  else true

/-- Accepts a text if the names in its lines may stand there. -/
def ofNames : Compiler := fun code =>
  if (Text.splitLines code.toList).all acceptsLine then .ok () else .error (.illFormed "")

end Compiler

end TaintWeave
