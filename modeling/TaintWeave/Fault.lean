/-!
# Faults

What goes wrong while a program is instrumented or an instrumented program runs,
apart from the documented errors of the tool itself (`Diagnostic`). A fault says
what happened; `Fault.name` is the word for it in the log, and `Fault.detail`
the explanation of those that have one.
-/

namespace TaintWeave

/-- A failure that is not a documented error. -/
inductive Fault where
  /-- A whole number beyond all doubles is tested for truth. -/
  | numberTooLarge
  /-- A whole number is written with more digits than are read. -/
  | numeralTooLong
  /-- The evaluator of dynamic code gives up. -/
  | evaluation (message : String)
  /-- A record of sources and sinks is bounded by a number below one. -/
  | invalidLimit (limit : Int)
  /-- The provenance of an untainted value is asked for; with the value as it is
      shown, if it has a stable form. -/
  | notTainted (shown : Option String)
  /-- A value is of the wrong kind, or there are too many or too few. -/
  | wrongType
  /-- A value has the right kind and a wrong content. -/
  | wrongContent
  /-- A part is asked for that a thing does not have. -/
  | missingPart
  /-- A name is not in a collection. -/
  | missingKey
  /-- A position is beyond the end of a sequence. -/
  | outOfRange
  /-- A file is expected where a directory is. -/
  | isDirectory
  /-- A directory is expected where a file is. -/
  | notDirectory
  /-- A directory cannot be made because its name is taken. -/
  | alreadyExists
  deriving DecidableEq, Repr

namespace Fault

/-- The word for a fault in the log. -/
def name : Fault → String
  | numberTooLarge => "OverflowError"
  | numeralTooLong | evaluation _ | invalidLimit _ | wrongContent => "ValueError"
  | notTainted _ | wrongType => "TypeError"
  | missingPart => "AttributeError"
  | missingKey => "KeyError"
  | outOfRange => "IndexError"
  | isDirectory => "IsADirectoryError"
  | notDirectory => "NotADirectoryError"
  | alreadyExists => "FileExistsError"

/-- The explanation of a fault, if it has one. -/
def detail : Fault → Option String
  | evaluation message => some message
  | invalidLimit limit => some ("max_records must be positive, got " ++ toString limit)
  | notTainted shown => shown.map fun s => "value " ++ s ++ " is not tainted"
  | _ => none

end Fault

end TaintWeave
