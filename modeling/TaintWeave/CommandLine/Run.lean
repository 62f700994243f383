import TaintWeave.CommandLine.Files
import TaintWeave.CommandLine.Invocation
import TaintWeave.Generate.Module
import TaintWeave.Instrumentation
import TaintWeave.Json.Writer
import TaintWeave.Node.Display
import TaintWeave.Node.Walk
import TaintWeave.Provenance.Reader
import TaintWeave.Taint.Operand

/-!
# Running commands

A command prints, writes files and leaves messages in the log; when it fails,
what it has done so far stays. The exit code is 0 for success, 1 for input that
is not well-formed and 2 for all other failures.

* `CommandLine.run`: the outcome of a command line.
-/

namespace TaintWeave.CommandLine

/-- What a command has done so far. -/
structure Progress where
  /-- What it has printed. -/
  output : String := ""
  /-- The files that it has written. -/
  written : List (Path × String) := []
  /-- Its messages. -/
  log : Log := []
  deriving DecidableEq, Repr

/-- Why a command fails. -/
structure Complaint where
  /-- The message. -/
  text : String
  /-- The exit code. -/
  exitCode : Nat
  deriving DecidableEq, Repr

/-- A step of a command. Its progress outlives a failure. -/
abbrev Action := ExceptT Complaint (StateM Progress)

/-! ## Failures -/

/-- The exit code of a documented error: that of bad input only if neither its
    class nor its code is about anything else. -/
def diagnosticExitCode (d : Diagnostic) : Nat :=
  if d.errorClass.isConfiguration || d.code.phase != .input then 2 else 1

/-- The complaint about a failure. -/
def Complaint.ofFailure : Failure → Complaint
  | .diagnostic d => ⟨d.message, diagnosticExitCode d⟩
  | .fault f => ⟨"Unhandled exception: " ++ f.name, 2⟩

instance : MonadLift (Except Failure) Action where
  monadLift
    | .ok a => pure a
    | .error f => throw (.ofFailure f)

instance : MonadLift (Except Diagnostic) Action where
  monadLift
    | .ok a => pure a
    | .error d => throw (.ofFailure (.diagnostic d))

instance : MonadLift (Except Fault) Action where
  monadLift
    | .ok a => pure a
    | .error f => throw (.ofFailure (.fault f))

/-! ## Steps -/

namespace Action

/-- Leaves a message. -/
def report (level : Level) (text : String) : Action Unit :=
  modify fun p => { p with log := p.log ++ [⟨level, text⟩] }

/-- Prints a text. -/
def print (text : String) : Action Unit := modify fun p => { p with output := p.output ++ text }

/-- Writes a file. -/
def write (files : Files) (p : Path) (text : String) : Action Unit := do
  files.checkWritable p
  modify fun progress => { progress with written := progress.written ++ [(p, text)] }

/-- Puts a text where the output of a command goes. -/
def deliver (files : Files) (output : Option String) (text : String) : Action Unit :=
  match output with
  | none | some "-" => print text
  | some path => write files (files.resolve path) text

/-- Runs instrumented code without recorded sources and sinks; gives also what
    it records. -/
def runInstrumented {α : Type} (code : Run α) : Action (α × Records) := do
  let (result, state) := code.run.run { records := { limit := none } }
  modify fun p => { p with log := p.log ++ state.log }
  return (← (result : Except Fault α), state.records)

/-- The catalog of the standard operators. -/
def standardCatalog : Action Catalog := do
  let catalog ← Catalog.ofTable .standard
  report .debug ("rule catalog built: " ++ toString catalog.rules.length ++ " rules, " ++
    toString catalog.index.length ++ " index keys")
  return catalog

/-- The mocks of a catalog. -/
def mocksOf (catalog : Catalog) : Action Namespace := do
  let ns ← Namespace.build catalog
  report .debug ("built " ++ toString ns.mocks.length ++ " mocks")
  return ns

end Action

/-- A text filled up with spaces to a width. -/
def padRight (width : Nat) (s : String) : String :=
  s ++ String.ofList (List.replicate (width - s.length) ' ')

/-- Lines, each with a line feed. -/
def unlines (lines : List String) : String := String.join (lines.map fun line => line ++ "\n")

/-! ## Commands -/

namespace Command

/-- Generates mocks, with the time to be noted. -/
def runGenerate (files : Files) (config : Config) (compile : Compiler) (time : String)
    (output : Option String) : Action Unit := do
  let ns ← Action.mocksOf (← Action.standardCatalog)
  let generated ← Generated.render ns config time none compile
  let count := toString generated.exports.length
  Action.report .info
    ("generated " ++ count ++ " mocks (" ++ toString generated.lineCount ++ " lines)")
  match output with
  | none | some "" | some "-" => Action.print generated.code
  | some path =>
    let p := files.resolve path
    Action.write files p generated.code
    Action.report .info ("wrote " ++ count ++ " mocks to " ++ p.display)

/-- The document in a file. -/
def readDocument (files : Files) (file : String) : Action Json := do
  let p := files.resolve file
  match files.get? p with
  | none => throw ⟨"ESTree file not found: " ++ p.display, 2⟩
  | some .directory => throw (.ofFailure (.fault .isDirectory))
  | some (.file text) =>
    let text := String.ofList (Text.unifyLineEnds text.toList)
    match Json.read text with
    | .ok document => return document
    | .error .numeralTooLong => throw (.ofFailure (.fault .numeralTooLong))
    | .error (.problem offset what) =>
      let (line, column) := Json.position text offset
      throw ⟨p.display ++ ":" ++ toString line ++ ":" ++ toString column ++ ": " ++ what.message,
        1⟩

/-- Instruments the tree in a file. -/
def runInstrument (files : Files) (file : String) (format : Format) (output : Option String) :
    Action Unit := do
  let document ← readDocument files file
  let tree ← Node.read document
  let catalog ← Action.standardCatalog
  let (tree, stats) ← catalog.instrument tree
  let visited := toString stats.visited
  let total := toString stats.total
  Action.report .debug ("rewrite visited " ++ visited ++ " nodes, replaced " ++ total)
  Action.report .info ("rewrote " ++ total ++ " of " ++ visited ++ " nodes")
  for (name, count) in stats.counts do
    Action.report .debug ("  " ++ padRight 20 name ++ " " ++ toString count)
  let text ← match format with
    | .sexp => pure (← tree.toSexp).write
    | .json => pure (← tree.toJson).writeIndented
  Action.deliver files output (text ++ "\n")

/-- The name of the source at a position among the tainted ones. -/
def sourceName (name : String) (tainted : Tainted) (arity : Nat) (position : String) : String :=
  if tainted = .both ∧ arity = 2 then name ++ "." ++ position else name

/-- An operand at a position, tainted if that is wanted. -/
def readOperand (name : String) (tainted : Tainted) (arity : Nat) (isLeft : Bool)
    (text : String) : Run Value := do
  let v ← Operand.read text
  if tainted = .both ∨ tainted = (if isLeft then .left else .right) then
    Run.taint v (sourceName name tainted arity (if isLeft then "left" else "right"))
  else return v

/-- Calls a mock on operands; gives its result without the taint, and the label
    if it is tainted. -/
def callMock (evaluator : Evaluator) (mock : Mock) (name : String) (tainted : Tainted)
    (operands : List String) : Run (Value × Option String) := do
  let arity := mock.spec.arity
  let values ← operands.zipIdx.mapM fun (text, i) =>
    readOperand name tainted arity (i == 0) text
  let result ← mock.call .inMemory evaluator values
  let raw ← Substrate.inMemory.unwrap result
  if Substrate.inMemory.isTainted result then
    return (raw, some (← Label.ofValue (← Substrate.inMemory.provenance result)))
  else return (raw, none)

/-- Applies the mock of an operator to operands. -/
def runTrace (config : Config) (evaluator : Evaluator) (symbol : String)
    (operands : List String) (tainted : Tainted) : Action Unit := do
  let catalog ← Action.standardCatalog
  if !catalog.table.contains symbol then
    throw ⟨"unknown operator " ++ Text.quote symbol, 1⟩
  let spec ← catalog.table.get symbol
  if operands.length ≠ spec.arity then
    throw ⟨Text.quote symbol ++ " takes " ++ toString spec.arity ++ " operand(s), got " ++
      toString operands.length, 1⟩
  let mock ← (← Action.mocksOf catalog).get spec.replacement
  let ((result, label), records) ←
    Action.runInstrumented (callMock evaluator mock config.sourceName tainted operands)
  let verdict := match label with
    | some label => "tainted: " ++ label
    | none => "untainted"
  let hits := records.sinkHits.map fun hit => "sink " ++ hit.sink ++ ": " ++ hit.label
  Action.print (unlines ((spec.replacement ++ ": " ++ result.toText) :: verdict :: hits))

/-- A line about an operator. -/
def operatorLine (spec : Spec) : String :=
  padRight 9 spec.category.name ++ " " ++ padRight 7 spec.symbol ++ " " ++
    padRight 20 spec.replacement ++ " " ++ spec.native

/-- Lists the operators, of one category or all. -/
def runOperators (files : Files) (category : Option Category) (output : Option String) :
    Action Unit :=
  let specs := match category with
    | some c => Table.standard.inCategory c
    | none => Table.standard.specs
  Action.deliver files output (unlines (specs.map operatorLine))

/-- Explains a label. -/
def runExplain (label : String) : Action Unit := do
  let derivation ← Derivation.read .standard label
  let sources := derivation.sources
  Action.print (unlines (derivation.toSexp.write ::
    if sources.isEmpty then [] else ["sources: " ++ String.intercalate ", " sources]))

/-- Runs a command. -/
def run (files : Files) (config : Config) (evaluator : Evaluator) (compile : Compiler)
    (time : String) : Command → Action Unit
  | generate output => runGenerate files config compile time output
  | instrument file format output => runInstrument files file format output
  | trace symbol operands tainted => runTrace config evaluator symbol operands tainted
  | operators category output => runOperators files category output
  | explain label => runExplain label

end Command

/-! ## Command lines -/

/-- The configuration of an invocation: the file that it names, and over that
    the settings that it makes itself. -/
def Invocation.config (i : Invocation) (files : Files) : Action Config := do
  let base ← match i.configFile with
    | none => pure {}
    | some given => do
      let p := files.resolve given
      let path := p.display
      match files.get? p with
      | none => throw ⟨"configuration file not found: " ++ path, 2⟩
      | some .directory => throw (.ofFailure (.diagnostic (Config.directoryFile path)))
      | some (.file text) =>
        let members ← Config.readText path text
        Action.report .debug ("loaded configuration from " ++ path)
        Config.updateMembers {} members
  base.override i.settings

/-- How a command line ends. -/
inductive Ending where
  /-- It is not carried out. -/
  | stopped (reason : Stop)
  /-- It does not name a command. -/
  | idle
  /-- A command was run. -/
  | done (exitCode : Nat)
  deriving DecidableEq, Repr

/-- The exit code of an ending. -/
def Ending.exitCode : Ending → Nat
  | stopped .usage | idle => 2
  | stopped .help | stopped .version => 0
  | done code => code

/-- The line that names the version. -/
def versionLine : String := "optaint 0.1.0\n"

/-- The end of a part of a command: its messages from a level on, and after them
    the complaint if it has failed. -/
def conclude {α : Type} (level : Level) (part : Action α) : Except Complaint α × Progress :=
  let (result, progress) := part.run.run {}
  let complaints := match result with
    | .ok _ => []
    | .error c => [⟨.error, c.text⟩]
  (result, { progress with log := progress.log.atLeast level ++ complaints })

/-- The outcome of an invocation of a command. -/
def Invocation.run (i : Invocation) (command : Command) (files : Files) (evaluator : Evaluator)
    (compile : Compiler) (time : String) : Nat × Progress :=
  match conclude i.level (i.config files) with
  | (.error c, progress) => (c.exitCode, progress)
  | (.ok config, loading) =>
    let level := if Config.isOn config.debug then .debug else i.level
    let (result, progress) := conclude level (command.run files config evaluator compile time)
    let code := match result with
      | .ok _ => 0
      | .error c => c.exitCode
    (code, { progress with log := loading.log ++ progress.log })

/-- The outcome of a command line. -/
def run (arguments : List String) (files : Files) (evaluator : Evaluator) (time : String)
    (compile : Compiler := Compiler.ofNames) : Ending × Progress :=
  match Invocation.read arguments with
  | .error .version => (.stopped .version, { output := versionLine })
  | .error reason => (.stopped reason, {})
  | .ok i =>
    match i.command with
    | none => (.idle, {})
    | some command =>
      let (code, progress) := i.run command files evaluator compile time
      (.done code, progress)

end TaintWeave.CommandLine
