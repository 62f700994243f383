import TaintWeave.Json.Reader
import TaintWeave.Taint.Run

/-!
# Operands from text

An operand is written as a JSON document; a text that is none stands for itself.

* `Operand.read`: the value that a text stands for.
-/

namespace TaintWeave.Operand

mutual

/-- The value of a document; its arrays and objects are new. -/
def ofJson : Json → Run Value
  | .null => return .null
  | .boolean b => return .boolean b
  | .number n => return .number n
  | .text s => return .text s
  | .array items => do
    let values ← ofItems items
    return .sequence (← Run.freshIdentity) .list values
  | .object members => do
    let values ← ofMembers members
    return .object (← Run.freshIdentity) values

/-- The values of the items of an array. -/
def ofItems : List Json → Run (List Value)
  | [] => return []
  | j :: js => do
    let v ← ofJson j
    let vs ← ofItems js
    return v :: vs

/-- The values of the members of an object. -/
def ofMembers : List (String × Json) → Run (List (String × Value))
  | [] => return []
  | (k, j) :: rest => do
    let v ← ofJson j
    let vs ← ofMembers rest
    return (k, v) :: vs

end

/-- The value that a text stands for. -/
def read (text : String) : Run Value :=
  match Json.read text with
  | .ok j => ofJson j
  | .error .numeralTooLong => throw .numeralTooLong
  | .error (.problem _ _) => return .text text

end TaintWeave.Operand
