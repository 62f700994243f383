import TaintWeave.Fault
import TaintWeave.Log
import TaintWeave.Value.Basic

/-!
# Instrumented runs

While instrumented code runs, the sources of taint and the sinks that tainted
values have reached are recorded, with a bound on the length of each record if
there is one, and reports go to the log. All this stays when an operation fails.

* `Records`: the two records.
* `Run`: a computation of instrumented code.
-/

namespace TaintWeave

/-- A tainted value has reached a sink. -/
structure SinkHit where
  /-- The sink. -/
  sink : String
  /-- The label of the value there. -/
  label : String
  deriving DecidableEq, Repr

/-- The records of sources and sinks, each cut to its newest entries. -/
structure Records where
  /-- The greatest length of a record, if it is bounded. -/
  limit : Option Nat
  /-- The names of the sources, in order. -/
  sources : List String := []
  /-- The sinks that were reached, in order. -/
  sinkHits : List SinkHit := []
  deriving DecidableEq, Repr

namespace Records

/-- The newest entries of a record. -/
def newest {α : Type} (limit : Option Nat) (entries : List α) : List α :=
  match limit with
  | none => entries
  | some n => entries.drop (entries.length - n)

/-- Records with a bound, which must be positive. -/
def ofLimit : Option Int → Except Fault Records
  | none => .ok { limit := none }
  | some n => if n < 1 then .error (.invalidLimit n) else .ok { limit := some n.toNat }

/-- Adds a source. -/
def addSource (r : Records) (name : String) : Records :=
  { r with sources := newest r.limit (r.sources ++ [name]) }

/-- Adds a sink that was reached. -/
def addSinkHit (r : Records) (hit : SinkHit) : Records :=
  { r with sinkHits := newest r.limit (r.sinkHits ++ [hit]) }

/-- Empties both records. -/
def clear (r : Records) : Records := { limit := r.limit }

end Records

/-- The state of a run. -/
structure RunState where
  /-- The identity of the next object. -/
  fresh : Identity := 0
  /-- The records. -/
  records : Records
  /-- The log. -/
  log : Log := []

/-- A computation of instrumented code. Its state outlives a fault. -/
abbrev Run := ExceptT Fault (StateM RunState)

namespace Run

/-- An identity that no object has yet. -/
def freshIdentity : Run Identity :=
  modifyGet fun s => (s.fresh, { s with fresh := s.fresh + 1 })

/-- Adds an entry to the log. -/
def report (level : Level) (text : String) : Run Unit :=
  modify fun s => { s with log := s.log ++ [⟨level, text⟩] }

/-- Records that a tainted value has reached a sink. -/
def recordSink (sink label : String) : Run Unit :=
  modify fun s => { s with records := s.records.addSinkHit ⟨sink, label⟩ }

/-- A value as a source of taint under a name. -/
def taint (v : Value) (name : String) : Run Value := do
  modify fun s => { s with records := s.records.addSource name }
  report .debug ("tainted source " ++ Text.quote name)
  return .tainted (← freshIdentity) v name

/-- Empties the records. -/
def clear : Run Unit := modify fun s => { s with records := s.records.clear }

end Run

end TaintWeave
