import TaintWeave.Operator.Table
import TaintWeave.Provenance.Label
import TaintWeave.Taint.Substrate

/-!
# Mocks

A mock stands for an operator in instrumented code. It takes the taint off its
operands, applies the native, and taints the result according to the category:

* unary: the result of a tainted operand is tainted, with the label of the
  operation on the label of the operand;
* binary: the result is tainted if one of the operands is, and an untainted
  operand stands in the label with its text;
* equality: the result is never tainted;
* function: as unary; besides, the tainted operand has reached a sink, which is
  reported and recorded before the function is called.

Faults of the native pass through.

* `Mock.call`: the result of a mock on operands.
-/

namespace TaintWeave

/-- The replacement of an operator. -/
structure Mock where
  /-- The operator. -/
  spec : Spec
  /-- What it does to values without taint. -/
  native : Native
  deriving DecidableEq, Repr

namespace Mock

/-- The name by which instrumented code calls the mock. -/
def name (mock : Mock) : String := mock.spec.replacement

/-- How a mock is shown. -/
def display (mock : Mock) : String :=
  "<mock " ++ mock.name ++ " for " ++ Text.quote mock.spec.symbol ++ ">"

variable (substrate : Substrate) (evaluator : Evaluator) (mock : Mock)

/-- The native of a mock. -/
def applyNative (operands : List Value) : Run Value := mock.native.apply evaluator operands

/-- The mock of a unary operator. -/
def callUnary (v : Value) : Run Value := do
  if !substrate.isTainted v then mock.applyNative evaluator [v]
  else
    let raw ← substrate.unwrap v
    let result ← mock.applyNative evaluator [raw]
    let provenance ← Label.ofValue (← substrate.provenance v)
    substrate.wrap result (Label.unary mock.spec.symbol provenance)

/-- An operand without its taint, and its label if it has one. -/
def operand (v : Value) : Run (Value × Option Value) := do
  if !substrate.isTainted v then return (v, none)
  else
    let raw ← substrate.unwrap v
    match ← substrate.provenance v with
    | .null => return (raw, none)
    | provenance => return (raw, some provenance)

/-- What stands for an operand in the label of an operation. -/
def operandLabel (raw : Value) : Option Value → Except Fault String
  | some provenance => Label.ofValue provenance
  | none => .ok (Label.value raw)

/-- The mock of a binary operator. -/
def callBinary (v w : Value) : Run Value := do
  let (left, leftLabel) ← operand substrate v
  let (right, rightLabel) ← operand substrate w
  let result ← mock.applyNative evaluator [left, right]
  if leftLabel.isNone && rightLabel.isNone then return result
  else
    let leftText ← operandLabel left leftLabel
    let rightText ← operandLabel right rightLabel
    substrate.wrap result (Label.binary mock.spec.symbol leftText rightText)

/-- A value without its taint, if it has any. -/
def bare (v : Value) : Except Fault Value :=
  if substrate.isTainted v then substrate.unwrap v else .ok v

/-- The mock of an equality. -/
def callEquality (v w : Value) : Run Value := do
  let left ← bare substrate v
  let right ← bare substrate w
  mock.applyNative evaluator [left, right]

/-- The mock of a function. -/
def callFunction (v : Value) : Run Value := do
  if !substrate.isTainted v then mock.applyNative evaluator [v]
  else
    let provenance ← Label.ofValue (← substrate.provenance v)
    let label := Label.unary mock.spec.symbol provenance
    Run.report .warning
      ("tainted value reached sink " ++ mock.spec.symbol ++ ": " ++ label)
    if substrate.recordsSinks then Run.recordSink mock.spec.symbol label
    let raw ← substrate.unwrap v
    let result ← mock.applyNative evaluator [raw]
    substrate.wrap result label

/-- The result of a mock on operands; another number of them than the category
    has is a fault. -/
def call (operands : List Value) : Run Value :=
  match mock.spec.category, operands with
  | .unary, [v] => mock.callUnary substrate evaluator v
  | .binary, [v, w] => mock.callBinary substrate evaluator v w
  | .equality, [v, w] => mock.callEquality substrate evaluator v w
  | .function, [v] => mock.callFunction substrate evaluator v
  | _, _ => throw .wrongType

end Mock

end TaintWeave
