import TaintWeave.Proofs.Taint.Raw
import TaintWeave.Taint.Namespace

/-!
# Interpretations of trees

A tree is evaluated strictly and from left to right, under an *interpretation* that says what names,
operators and calls stand for. A tree before instrumentation has the operators and functions of a
table, which stand for their natives, and its names stand for raw values (`Table.interpretation`). A
tree after it calls the mocks of a namespace (`Namespace.interpretation`).

* `Node.evaluate`: the value of a tree under an interpretation.
* `Table.interpretation`, `Namespace.interpretation`: the two interpretations.
* `Catalog.Expression`: the trees that have a value.
-/

namespace TaintWeave

/-- What names, operators and calls stand for, in computations of some kind. -/
structure Interpretation (m : Type → Type) where
  /-- The value of a name. -/
  name : String → m Value
  /-- The result of an operator on operands. -/
  operator : String → List Value → m Value
  /-- The result of a function called by its name. -/
  call : String → List Value → m Value

/-- The value of a document that is a scalar. -/
def Json.scalar? : Json → Option Value
  | .null => some .null
  | .boolean b => some (.boolean b)
  | .number n => some (.number n)
  | .text s => some (.text s)
  | .array _ | .object _ => none

section Evaluation

variable {m : Type → Type} [Monad m] [MonadExceptOf Fault m] (interpretation : Interpretation m)

mutual

/-- The value of a tree: operands first, from left to right. What has no value is a fault. -/
def Node.evaluate : Node → m Value
  | .identifier (.data (.text name)) _ => interpretation.name name
  | .literal value _ _ =>
    match value.scalar? with
    | some v => pure v
    | none => throw Fault.wrongType
  | .unary _ (.data (.text symbol)) argument _ _ => do
    let v ← argument.evaluate
    interpretation.operator symbol [v]
  | .binary _ (.data (.text symbol)) left right _ => do
    let v ← left.evaluate
    let w ← right.evaluate
    interpretation.operator symbol [v, w]
  | .call (.identifier (.data (.text name)) _) (.list arguments) _ => do
    let operands ← Slot.evaluateAll arguments
    interpretation.call name operands
  | _ => throw Fault.wrongType

/-- The values of the nodes in a list of slots. -/
def Slot.evaluateAll : List Slot → m (List Value)
  | [] => pure []
  | .node n :: rest => do
    let v ← n.evaluate
    let vs ← Slot.evaluateAll rest
    return v :: vs
  | _ :: _ => throw Fault.wrongType

end

end Evaluation

/-- The native of the operator with a symbol. -/
def Table.native? (table : Table) (symbol : String) : Option Native :=
  (table.specs.find? fun s => s.symbol == symbol).bind fun s => Native.ofName? s.native

/-- The operator or function with a symbol, as its native. -/
def Table.applyNative (table : Table) (evaluator : Evaluator) (symbol : String)
    (operands : List Value) : Except Fault Value :=
  match table.native? symbol with
  | some native => native.apply evaluator operands
  | none => .error .missingKey

/-- The interpretation of trees before instrumentation: the operators and functions of a table are
    their natives, and names stand for raw values. -/
def Table.interpretation (table : Table) (evaluator : Evaluator) (env : String → Value) :
    Interpretation (Except Fault) where
  name n := .ok (env n).raw
  operator := table.applyNative evaluator
  call := table.applyNative evaluator

/-- The interpretation of trees after instrumentation: the functions called are mocks, and no
    operators are left. -/
def Namespace.interpretation (ns : Namespace) (evaluator : Evaluator) (env : String → Value) :
    Interpretation Run where
  name n := return env n
  operator _ _ := throw .missingKey
  call name operands := do
    let mock ← ns.get name
    mock.call .inMemory evaluator operands

/-- The trees that are evaluated here: names and scalars, under operators that a rule of the catalog
    accepts and functions of the catalog that are called with one argument. -/
inductive Catalog.Expression (catalog : Catalog) : Node → Prop
  | identifier (name : String) (extra : Members Json) :
      Expression catalog (.identifier (.text name) extra)
  | literal {value : Json} (raw : Json) (extra : Members Json) (scalar : value.scalar?.isSome) :
      Expression catalog (.literal value raw extra)
  | unary {kind : UnaryKind} {operator : Slot} {argument : Node} {leading : Slot}
      {extra : Members Json} {rule : Rule} (mem : rule ∈ catalog.rules)
      (accepts : rule.accepts (.unary kind operator argument leading extra) = true)
      (operand : Expression catalog argument) :
      Expression catalog (.unary kind operator argument leading extra)
  | binary {kind : BinaryKind} {operator : Slot} {left right : Node} {extra : Members Json}
      {rule : Rule} (mem : rule ∈ catalog.rules)
      (accepts : rule.accepts (.binary kind operator left right extra) = true)
      (first : Expression catalog left) (second : Expression catalog right) :
      Expression catalog (.binary kind operator left right extra)
  | call {calleeExtra : Members Json} {argument : Node} {extra : Members Json} {rule : Rule}
      (mem : rule ∈ catalog.rules) (category : rule.category = .function)
      (operand : Expression catalog argument) :
      Expression catalog
        (.call (.identifier (.text rule.symbol) calleeExtra) (.list [.node argument]) extra)

end TaintWeave
