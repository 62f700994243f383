import TaintWeave.Diagnostic.Basic
import TaintWeave.Fault

/-!
# Failures

A `Failure` is what stops the tool: a documented error, or a fault.
-/

namespace TaintWeave

/-- A documented error or a fault. -/
inductive Failure where
  /-- A documented error. -/
  | diagnostic (d : Diagnostic)
  /-- A fault. -/
  | fault (f : Fault)
  deriving DecidableEq, Repr

instance : MonadLift (Except Diagnostic) (Except Failure) where
  monadLift x := x.mapError Failure.diagnostic

instance : MonadLift (Except Fault) (Except Failure) where
  monadLift x := x.mapError Failure.fault

end TaintWeave
