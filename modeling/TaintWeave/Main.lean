import Std.Time.Format
import TaintWeave.CommandLine.Run

/-!
# The command line

Looks up what is under the paths of a command line, runs it, and carries out
what it has come to.
-/

namespace TaintWeave.CommandLine

/-- How the tool is called. -/
def usage : String :=
  unlines
    ["usage: optaint [-h] [--version] [-v] [-c FILE] [--debug] <command> ...",
     "",
     "commands:",
     "  generate [-o FILE] [--substrate MODULE] [--export NAME ...] [--no-sink-record]",
     "  rewrite FILE [-f json|sexp] [-o FILE]",
     "  trace SYMBOL OPERAND ... [-t none|left|right|both] [--taint-name NAME]",
     "  operators [--category CATEGORY] [-o FILE]",
     "  explain LABEL"]

/-- What is under a path, below directories. -/
def entryAt (p : Path) : IO (Option Entry) := do
  try
    return some (.file (← IO.FS.readFile p.display))
  catch
    | .inappropriateType _ _ _ => return some .directory
    | _ => return none

/-- What is under paths that are listed from the root on. -/
def entriesAlong : List Path → IO (List (Path × Entry))
  | [] => return []
  | p :: below => do
    match ← entryAt p with
    | none => return []
    | some (.file text) => return [(p, .file text)]
    | some .directory => return (p, .directory) :: (← entriesAlong below)

/-- The files that a command line is about. -/
def filesOf (arguments : List String) : IO Files := do
  let directory := (⟨[]⟩ : Path).resolve (toString (← IO.currentDir))
  let given := match Invocation.read arguments with
    | .ok i => i.paths
    | .error _ => []
  let entries ← given.mapM fun path => entriesAlong (directory.resolve path).lineage
  return ⟨directory, entries.flatten⟩

/-- Dynamic code is not evaluated here. -/
def noEvaluator : Evaluator := fun _ => .error (.evaluation "no evaluator is installed")

/-- Runs a command line. -/
def perform (arguments : List String) : IO UInt32 := do
  let files ← filesOf arguments
  let time := (← Std.Time.PlainDateTime.now).format "uuuu-MM-dd'T'HH:mm:ss"
  let (ending, progress) := run arguments files noEvaluator time
  for (p, text) in progress.written do
    IO.FS.createDirAll p.parent.display
    IO.FS.writeFile p.display text
  IO.print progress.output
  for entry in progress.log do
    IO.eprintln ("[" ++ entry.level.name ++ "] " ++ entry.text)
  match ending with
  | .stopped .help => IO.print usage
  | .stopped .usage | .idle => IO.eprint usage
  | _ => pure ()
  return ending.exitCode.toUInt32

end TaintWeave.CommandLine

/-- Runs the command line of the process. -/
def main (arguments : List String) : IO UInt32 := TaintWeave.CommandLine.perform arguments
