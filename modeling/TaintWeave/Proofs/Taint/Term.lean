import TaintWeave.Proofs.Taint.Raw
import TaintWeave.Provenance.Derivation
import TaintWeave.Taint.Namespace

/-!
# Terms of mocks

What instrumented code computes with the mocks of a namespace: a *term* of calls, with values at its
leaves. A leaf is a source of taint if it stands for a tainted value, and then the label of that is
the name of the source. A term has a value with taint, one without, and a derivation, which tells
from which sources and through which operations the value comes. An equality hides the sources below
it; all others are *exposed*.

* `Term.evaluate`: the value of a term, with taint.
* `Term.plain`: its value without taint, by the natives alone.
* `Term.exposed`: the names of the sources that no equality hides.
* `Term.derivation`: how the value comes about.
-/

namespace TaintWeave

/-- Calls of mocks by their names, with leaves of some type. -/
inductive Term (α : Type) where
  /-- A value from outside. -/
  | leaf (a : α)
  /-- A call of a mock. -/
  | call (name : String) (operands : List (Term α))

/-- Whether a name is that of an equality. -/
def Namespace.hides (ns : Namespace) (name : String) : Bool :=
  (ns.get? name).any fun mock => mock.spec.category == .equality

namespace Term

variable {α : Type} (ns : Namespace) (evaluator : Evaluator) (values : α → Value)

mutual

/-- The value of a term with the mocks of a namespace: operands first, from left to right. -/
def evaluate : Term α → Run Value
  | leaf a => return values a
  | call name operands => do
    let vs ← evaluateAll operands
    let mock ← ns.get name
    mock.call .inMemory evaluator vs

/-- The values of terms. -/
def evaluateAll : List (Term α) → Run (List Value)
  | [] => return []
  | t :: ts => do
    let v ← evaluate t
    let vs ← evaluateAll ts
    return v :: vs

end

mutual

/-- The value of a term without taint: that of the natives behind the mocks, on raw values. -/
def plain : Term α → Except Fault Value
  | leaf a => .ok (values a).raw
  | call name operands => do
    let vs ← plainAll operands
    let mock ← ns.get name
    mock.native.apply evaluator vs

/-- The values of terms without taint. -/
def plainAll : List (Term α) → Except Fault (List Value)
  | [] => .ok []
  | t :: ts => do
    let v ← plain t
    let vs ← plainAll ts
    return v :: vs

end

mutual

/-- The names of the sources that are not below an equality, from left to right. -/
def exposed : Term α → List String
  | leaf a => (values a).label?.toList
  | call name operands => if ns.hides name then [] else exposedAll operands

/-- The names of the exposed sources of terms. -/
def exposedAll : List (Term α) → List String
  | [] => []
  | t :: ts => exposed t ++ exposedAll ts

end

mutual

/-- How the value of a term comes about. A term without exposed sources stands for its value, as a
    text; any other is a source, or an operation on what its operands come from. -/
def derivation : Term α → Except Fault Derivation
  | leaf a =>
    match (values a).label? with
    | some name => .ok (.source name)
    | none => .ok (.value (values a).toText)
  | call name operands =>
    if exposed ns values (call name operands) = [] then do
      let v ← plain ns evaluator values (call name operands)
      return .value v.toText
    else do
      let mock ← ns.get name
      let ds ← derivations operands
      return .operation mock.spec.symbol ds

/-- How the values of terms come about. -/
def derivations : List (Term α) → Except Fault (List Derivation)
  | [] => .ok []
  | t :: ts => do
    let d ← derivation t
    let ds ← derivations ts
    return d :: ds

end

end Term

end TaintWeave
