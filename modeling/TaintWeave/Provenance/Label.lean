import TaintWeave.Value.Conversion

/-!
# Provenance labels

Every tainted value carries a label: the name of a source, or the record of the
operation that the value comes from, with the labels of the operands.

* `Label.value`: stands for an operand without taint.
* `Label.unary`, `Label.binary`: an operation with one or two operands.
-/

namespace TaintWeave.Label

/-- The label of an operand without taint: its text in `value(…)`. -/
def value (v : Value) : String := "value(" ++ v.toText ++ ")"

/-- The label of an operation with one operand. -/
def unary (symbol operand : String) : String := symbol ++ "(" ++ operand ++ ")"

/-- The label of an operation with two operands. -/
def binary (symbol left right : String) : String :=
  symbol ++ "(" ++ left ++ "," ++ right ++ ")"

/-- A value as a part of a label, which must be a text. -/
def ofValue (v : Value) : Except Fault String :=
  match v.text? with
  | some s => .ok s
  | none => .error .wrongType

end TaintWeave.Label
