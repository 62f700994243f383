/-!
# The log

What the tool reports beside its output: entries with a level and a text.

* `Log.atLeast`: the entries of a level and of all that are more urgent.
-/

namespace TaintWeave

/-- How urgent an entry is. -/
inductive Level where
  | debug | info | warning | error
  deriving DecidableEq, Repr

namespace Level

/-- The name of a level. -/
def name : Level → String
  | debug => "DEBUG"
  | info => "INFO"
  | warning => "WARNING"
  | error => "ERROR"

/-- The urgency as a number. -/
def rank : Level → Nat
  | debug => 0
  | info => 1
  | warning => 2
  | error => 3

end Level

/-- An entry of the log. -/
structure LogEntry where
  /-- How urgent it is. -/
  level : Level
  /-- What it says. -/
  text : String
  deriving DecidableEq, Repr

/-- Entries in order. -/
abbrev Log := List LogEntry

/-- The entries of a level and of all that are more urgent. -/
def Log.atLeast (level : Level) (log : Log) : Log :=
  log.filter fun entry => level.rank ≤ entry.level.rank

end TaintWeave
