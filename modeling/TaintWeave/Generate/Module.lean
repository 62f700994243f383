import TaintWeave.Config
import TaintWeave.Generate.Compiler
import TaintWeave.Generate.Definition
import TaintWeave.Generate.Emitter
import TaintWeave.Taint.Namespace
import TaintWeave.Text.Dedent

/-!
# Generated modules

The mocks of a namespace as one module that runs on its own: a header, the
imports, a definition per mock, a registry of these and a predicate over it, and
the list of the names.

* `Generated.assemble`: the lines of the module for mocks.
* `Generated.render`: the module for a selection of mocks, if it compiles.
-/

namespace TaintWeave

/-- A generated module. -/
structure Generated where
  /-- Its text. -/
  code : String
  /-- The names of the mocks that it defines, in order. -/
  exports : List String
  /-- The module that it takes the substrate from. -/
  substrateModule : String
  /-- The number of lines. -/
  lineCount : Nat
  deriving DecidableEq, Repr

namespace Generated

/-- The operations that generated code takes from the substrate. -/
def substrateOperations (recordSinks : Bool) : List String :=
  Substrate.requiredOperations ++ if recordSinks then ["record_sink"] else []

/-- The mocks under the names that are asked for; the first that does not exist
    is reported. -/
def select (ns : Namespace) (names : List String) : Except Diagnostic (Members Mock) :=
  let known := String.intercalate ", " (ns.names.mergeSort (· ≤ ·))
  names.mapM fun name =>
    match ns.get? name with
    | some mock => .ok (name, mock)
    | none => .error (.missingExport (Text.quote name) ("known mocks: " ++ known))

/-- Whether a module with mocks imports the operation that records sinks. -/
def importsSinks (config : Config) (mocks : Members Mock) : Bool :=
  Config.isOn config.recordSinks && mocks.any fun m => m.2.spec.category == .function

/-- The margin with which the comment of a module is written. -/
def commentMargin : String := "            "

/-- The comment at the beginning of a module. -/
def comment (module generated : String) (count : Nat) : String :=
  String.ofList (Text.dedent
    (commentMargin ++ "# Generated by optaint\n" ++
     commentMargin ++ "# Substrate: " ++ module ++ "\n" ++
     commentMargin ++ "# Generated: " ++ generated ++ "\n" ++
     commentMargin ++ "# Exports: " ++ toString count ++ "\n" ++ commentMargin).toList)

/-- The lines before the first definition. -/
def header (module generated : String) (count : Nat) (operations : List String) : Emitter :=
  let e : Emitter := {}
  let e := e.emitRaw (comment module generated count)
  let e := (e.emit "import logging").emitBlank 1
  let e := e.emit "from optaint import jsops as _js"
  let e := e.emit ("from " ++ module ++ " import " ++ String.intercalate ", " operations)
  let e := ((e.emitBlank 1).emit "_log = logging.getLogger('optaint.generated')").emitBlank 1
  e.emitRaw (Definition.binding "MOCK_FUNCTION_KEY" (Text.quote Namespace.markerName))

/-- The lines after the last definition. -/
def footer (e : Emitter) (names : List String) : Emitter :=
  let e := (e.emitBlank 2).emitSequence "_MOCK_FUNCTION_IDS = frozenset(id(f) for f in (" names "))"
  let e := (e.emitBlank 2).openBlock ("def " ++ Namespace.markerName ++ "(f):")
  -- Two backquotes on each side, by their code, set the parameter off.
  let e := e.emit "\"\"\"Whether \x60\x60f\x60\x60 is one of the mocks defined above.\"\"\""
  let e := (e.emit "return id(f) in _MOCK_FUNCTION_IDS").closeBlock
  (e.emitBlank 2).emitSequence "__all__ = ["
    (("MOCK_FUNCTION_KEY" :: Namespace.markerName :: names).map Text.quote) "]"

/-- The lines of the module for mocks under names. -/
def assemble (config : Config) (generated : String) (mocks : Members Mock) : Emitter :=
  let names := Members.keys mocks
  let e := header config.substrateName generated names.length
    (substrateOperations (importsSinks config mocks))
  let e := mocks.foldl (fun e m =>
    e.emitDefinition (Definition.render m.2.spec m.1 (Config.isOn config.recordSinks))) e
  footer e names

/-- The module for mocks under names, before it is compiled. -/
def ofMocks (config : Config) (generated : String) (mocks : Members Mock) : Generated :=
  let e := assemble config generated mocks
  { code := e.code
    exports := Members.keys mocks
    substrateModule := config.substrateName
    lineCount := e.lineCount }

/-- A module, if it compiles. -/
def compiled (g : Generated) (compile : Compiler) : Except Failure Generated :=
  match compile g.code with
  | .ok () => .ok g
  | .error e => .error e.failure

/-- The module for the mocks that are asked for, or else for those of the
    configuration, or for all, if it compiles. A name that is asked for twice is
    defined once. `generated` is the time to be noted. -/
def render (ns : Namespace) (config : Config) (generated : String)
    (exports : Option (List String) := none) (compile : Compiler := Compiler.ofNames) :
    Except Failure Generated := do
  let configured := if config.exportNames.isEmpty then ns.names else config.exportNames
  let mocks := Members.ofPairs (← select ns (exports.getD configured))
  (ofMocks config generated mocks).compiled compile

end Generated

end TaintWeave
