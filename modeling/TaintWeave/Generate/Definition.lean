import TaintWeave.Diagnostic.Basic
import TaintWeave.Failure
import TaintWeave.Operator.Table

/-!
# Definitions of mocks

The text of a mock as a function of the generated module. There is one template
per category; a symbol stands in it as a literal.

* `Definition.render`: the definition of an operator's mock under a name.
* `Definition.binding`: the binding of a name to a value.
-/

namespace TaintWeave.Definition

/-- Lines, each with a line feed. -/
def ofLines (lines : List String) : String := String.join (lines.map fun line => line ++ "\n")

/-- The mock of a unary operator. -/
def unary (name symbol operation : String) : List String :=
  ["def " ++ name ++ "(value):",
   "    \"\"\"Mock for unary " ++ symbol ++ ".\"\"\"",
   "    if not is_tainted(value):",
   "        return _js." ++ operation ++ "(value)",
   "    result = _js." ++ operation ++ "(unwrap(value))",
   "    return wrap(result, " ++ symbol ++ " + '(' + provenance_name(value) + ')')"]

/-- The mock of a binary operator. -/
def binary (name symbol operation : String) : List String :=
  ["def " ++ name ++ "(left, right):",
   "    \"\"\"Mock for binary " ++ symbol ++ ".\"\"\"",
   "    left_label = provenance_name(left) if is_tainted(left) else None",
   "    right_label = provenance_name(right) if is_tainted(right) else None",
   "    if left_label is not None:",
   "        left = unwrap(left)",
   "    if right_label is not None:",
   "        right = unwrap(right)",
   "    result = _js." ++ operation ++ "(left, right)",
   "    if left_label is None and right_label is None:",
   "        return result",
   "    if left_label is None:",
   "        left_label = 'value(' + _js.to_string(left) + ')'",
   "    if right_label is None:",
   "        right_label = 'value(' + _js.to_string(right) + ')'",
   "    return wrap(result, " ++ symbol ++ " + '(' + left_label + ',' + right_label + ')')"]

/-- The mock of an equality. -/
def equality (name symbol operation : String) : List String :=
  ["def " ++ name ++ "(left, right):",
   "    \"\"\"Mock for equality " ++ symbol ++ "; the result is never tainted.\"\"\"",
   "    if is_tainted(left):",
   "        left = unwrap(left)",
   "    if is_tainted(right):",
   "        right = unwrap(right)",
   "    return _js." ++ operation ++ "(left, right)"]

/-- The mock of a function, which records the sink if that is wanted. -/
def function (recordSinks : Bool) (name symbol operation : String) : List String :=
  ["def " ++ name ++ "(value):",
   "    \"\"\"Mock for the " ++ symbol ++ " sink.\"\"\"",
   "    if not is_tainted(value):",
   "        return _js." ++ operation ++ "(value)",
   "    label = " ++ symbol ++ " + '(' + provenance_name(value) + ')'",
   "    _log.warning('tainted value reached sink %s: %s', " ++ symbol ++ ", label)"] ++
  (if recordSinks then ["    record_sink(" ++ symbol ++ ", label)"] else []) ++
  ["    return wrap(_js." ++ operation ++ "(unwrap(value)), label)"]

/-- The definition of an operator's mock under a name. -/
def render (spec : Spec) (name : String) (recordSinks : Bool := true) : String :=
  let template := match spec.category with
    | .unary => unary
    | .binary => binary
    | .equality => equality
    | .function => function recordSinks
  ofLines (template name (Text.quote spec.symbol) spec.native)

/-- The definition of an operator whose category is not checked. -/
def renderEntry (entry : Entry Value) (name : String) (recordSinks : Bool := true) :
    Except Failure String :=
  match entry.category with
  | .category c => .ok (render ⟨entry.symbol, c, entry.replacement, entry.native⟩ name recordSinks)
  | v =>
    if v.hasLookup then .error (.diagnostic (.missingTemplate (v.display.getD "")))
    else .error (.fault .wrongType)

/-- A name bound to a literal. -/
def binding (name literal : String) : String := name ++ " = " ++ literal ++ "\n"

end TaintWeave.Definition
