import TaintWeave.Diagnostic.Basic
import TaintWeave.Fault
import TaintWeave.Value.Basic

/-!
# Diagnostics of a host

A host can report an error of any class. It gives values from which the class
makes the text, and it may choose the code and the hint.

* `Diagnostic.ofValues`: the error of a class from values.
-/

namespace TaintWeave

/-- A value as a text in a message. -/
def Value.inMessage (v : Value) : String := v.text?.getD (v.display.getD "")

namespace Diagnostic

/-- The error of a class from values; the number of them must suit the class. -/
def ofValues (errorClass : ErrorClass) (values : List Value) : Except Fault Diagnostic :=
  match errorClass, values with
  | .unclassifiedOperator, [symbol] | .unclassifiedOperator, [symbol, .null] =>
    .ok (unclassifiedOperator (symbol.display.getD "") none)
  | .unclassifiedOperator, [symbol, category] =>
    .ok (unclassifiedOperator (symbol.display.getD "") (some (category.display.getD "")))
  | .missingExport, [name] => .ok (missingExport (name.display.getD ""))
  | .provenanceSyntax, [label] => .ok (provenanceSyntax (label.display.getD ""))
  | .provenanceSyntax, [label, detail] =>
    .ok (provenanceSyntax (label.display.getD "") detail.inMessage)
  | .unclassifiedOperator, _ | .missingExport, _ | .provenanceSyntax, _ => .error .wrongType
  | c, [text] => .ok { errorClass := c, text := text.inMessage }
  | _, _ => .error .wrongType

/-- The error with a code and a hint, where they are given. -/
def override (d : Diagnostic) (code : Option ErrorCode) (hint : Option String) : Diagnostic :=
  { d with code := code.getD d.code, hint := hint.getD d.hint }

end Diagnostic

end TaintWeave
