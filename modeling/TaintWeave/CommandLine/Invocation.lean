import TaintWeave.Category
import TaintWeave.CommandLine.Grammar
import TaintWeave.Json.Basic
import TaintWeave.Log

/-!
# Invocations

The commands of the tool and what each of them is told to do. Switches for all
commands stand before the name of a command, and those of a command after it.

* `Invocation.read`: the invocation that a command line stands for.
* `Invocation.settings`: the settings of the configuration that it makes.
-/

namespace TaintWeave.CommandLine

/-- The formats of an instrumented tree. -/
inductive Format where
  | json | sexp
  deriving DecidableEq, Repr

/-- The format with a name. -/
def Format.ofName? : String → Option Format
  | "json" => some json
  | "sexp" => some sexp
  | _ => none

/-- The operands of a traced operator that are tainted. -/
inductive Tainted where
  | none | left | right | both
  deriving DecidableEq, Repr

/-- The tainted operands with a name. -/
def Tainted.ofName? : String → Option Tainted
  | "none" => some none
  | "left" => some left
  | "right" => some right
  | "both" => some both
  | _ => .none

/-- A command with its arguments. An output is a path; without one, and for a
    hyphen, it is the standard output. -/
inductive Command where
  /-- Generates mocks. -/
  | generate (output : Option String)
  /-- Instruments the tree in a file. -/
  | instrument (file : String) (format : Format) (output : Option String)
  /-- Applies a mock to operands. -/
  | trace (symbol : String) (operands : List String) (tainted : Tainted)
  /-- Lists operators. -/
  | operators (category : Option Category) (output : Option String)
  /-- Explains a label. -/
  | explain (label : String)
  deriving DecidableEq, Repr

/-- A command line that makes sense. -/
structure Invocation where
  /-- How often more messages are asked for. -/
  verbosity : Nat := 0
  /-- The path of a configuration. -/
  configFile : Option String := none
  /-- The settings that are made here. -/
  settings : Members Json := []
  /-- Whether all messages are asked for. -/
  debug : Bool := false
  /-- The command, if there is one. -/
  command : Option Command := none

/-! ## Grammars -/

/-- The switch that asks for help. -/
def helpSwitch : Switch := { names := ["-h", "--help"], key := "help", effect := .stop .help }

/-- The switch that names the output. -/
def outputSwitch : Switch := { names := ["-o", "--output"], key := "output", arguments := .one }

/-- What stands before the arguments of a command. -/
def mainGrammar : Grammar where
  switches :=
    [helpSwitch,
     { names := ["--version"], key := "version", effect := .stop .version },
     { names := ["-v", "--verbose"], key := "verbose" },
     { names := ["-c", "--config"], key := "config", arguments := .one },
     { names := ["--debug"], key := "debug" }]
  places := [{ key := "command", extent := .rest, isRequired := false }]

/-- The arguments for the generation of mocks. -/
def generateGrammar : Grammar where
  switches :=
    [helpSwitch, outputSwitch,
     { names := ["--substrate"], key := "substrate", arguments := .one },
     { names := ["--export"], key := "export", arguments := .several },
     { names := ["--no-sink-record"], key := "no-sink-record" }]

/-- The arguments for an instrumentation. -/
def instrumentGrammar : Grammar where
  switches :=
    [helpSwitch,
     { names := ["-f", "--format"], key := "format", arguments := .one,
       choices := ["json", "sexp"] },
     outputSwitch]
  places := [{ key := "file" }]

/-- The arguments for a trace. -/
def traceGrammar : Grammar where
  switches :=
    [helpSwitch,
     { names := ["-t", "--tainted"], key := "tainted", arguments := .one,
       choices := ["none", "left", "right", "both"] },
     { names := ["--taint-name"], key := "taint-name", arguments := .one }]
  places := [{ key := "symbol" }, { key := "operands", extent := .several }]

/-- The arguments for the list of operators. -/
def operatorsGrammar : Grammar where
  switches :=
    [helpSwitch,
     { names := ["--category"], key := "category", arguments := .one,
       choices := Category.all.map Category.name },
     outputSwitch]

/-- The arguments for an explanation. -/
def explainGrammar : Grammar where
  switches := [helpSwitch]
  places := [{ key := "label" }]

/-! ## Commands -/

/-- The command that arguments stand for, and the settings that it makes. -/
abbrev CommandReading := Command × Members Json

/-- The text of a setting as a setting of the configuration. -/
def textSetting (r : Parsed) (key configKey : String) : Members Json :=
  (r.argument? key).toList.map fun s => (configKey, .text s)

/-- The command to generate mocks. -/
def generateOf (r : Parsed) : CommandReading :=
  (.generate (r.argument? "output"),
   textSetting r "substrate" "substrate_module" ++
     ((r.last? "export").toList.map fun names => ("exports", .array (names.map Json.text))) ++
     if r.has "no-sink-record" then [("record_sinks", .boolean false)] else [])

/-- The command to instrument. -/
def instrumentOf (r : Parsed) : CommandReading :=
  (.instrument ((r.argument? "file").getD "")
    (((r.argument? "format").bind Format.ofName?).getD .json) (r.argument? "output"), [])

/-- The command to trace. -/
def traceOf (r : Parsed) : CommandReading :=
  (.trace ((r.argument? "symbol").getD "") ((r.last? "operands").getD [])
    (((r.argument? "tainted").bind Tainted.ofName?).getD .left),
   textSetting r "taint-name" "taint_name")

/-- The command to list operators. -/
def operatorsOf (r : Parsed) : CommandReading :=
  (.operators ((r.argument? "category").bind Category.ofName?) (r.argument? "output"), [])

/-- The command to explain. -/
def explainOf (r : Parsed) : CommandReading := (.explain ((r.argument? "label").getD ""), [])

/-- The commands by name, each with its grammar. -/
def commands : List (String × Grammar × (Parsed → CommandReading)) :=
  [("generate", generateGrammar, generateOf), ("rewrite", instrumentGrammar, instrumentOf),
   ("trace", traceGrammar, traceOf), ("operators", operatorsGrammar, operatorsOf),
   ("explain", explainGrammar, explainOf)]

namespace Invocation

/-- Reads a command and its arguments; gives also what is left over. -/
def readCommand : List String → Except Stop (Option CommandReading × List String)
  | [] => .ok (none, [])
  | name :: arguments =>
    match commands.lookup name with
    | none => .error .usage
    | some (grammar, command) => do
      let r ← grammar.read arguments
      return (some (command r), r.leftover)

/-- The invocation that a command line stands for. -/
def read (arguments : List String) : Except Stop Invocation := do
  let r ← mainGrammar.read arguments
  let (command, leftover) ← readCommand ((r.last? "command").getD [])
  if !r.leftover.isEmpty || !leftover.isEmpty then throw .usage
  let debug := r.has "debug"
  return {
    verbosity := r.count "verbose"
    configFile := (r.argument? "config").filter fun path => !path.isEmpty
    settings := (command.map (·.2)).getD [] ++ if debug then [("debug", .boolean true)] else []
    debug := debug
    command := command.map (·.1) }

/-- The level from which on messages are wanted. -/
def level (i : Invocation) : Level :=
  if i.verbosity = 1 then .info
  else if 2 ≤ i.verbosity || i.debug then .debug
  else .warning

/-- The paths that the invocation names. -/
def paths (i : Invocation) : List String :=
  i.configFile.toList ++
    match i.command with
    | some (.generate output) | some (.operators _ output) => output.toList
    | some (.instrument file _ output) => file :: output.toList
    | _ => []

end Invocation

end TaintWeave.CommandLine
