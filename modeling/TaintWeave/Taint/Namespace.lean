import TaintWeave.Catalog.Basic
import TaintWeave.Failure
import TaintWeave.Taint.Mock

/-!
# Namespaces of mocks

The mocks of all operators of a catalog, under the names by which
instrumented code calls them. Which natives there are under names is a
parameter.

* `Namespace.build`: the namespace of a catalog.
* `Namespace.get?`, `Namespace.forSymbol`: a mock by its name or its symbol.
-/

namespace TaintWeave

/-- One mock per operator. -/
structure Namespace where
  /-- The mocks under their names, in the order of the catalog. -/
  mocks : Members Mock
  /-- The catalog that they belong to. -/
  catalog : Catalog

namespace Namespace

/-- The name of the predicate that tells the mocks from other functions. -/
def markerName : String := "__is_mock_function__"

/-- The mock of an operator, if mocks of its category can be made. -/
def mockOf (categories : List Category) (catalog : Catalog) (rule : Rule)
    (natives : String → Option Native := Native.ofName?) : Except Failure Mock := do
  let spec ← catalog.table.get rule.symbol
  if !categories.contains spec.category then
    throw (.diagnostic (.unclassifiedOperator (Text.quote rule.symbol) (some spec.category.display)))
  match natives rule.spec.native with
  | some native => return ⟨rule.spec, native⟩
  | none => throw (.fault .missingPart)

/-- The namespace of a catalog, if mocks can be made of all its categories. -/
def build (catalog : Catalog) (categories : List Category := Category.all)
    (natives : String → Option Native := Native.ofName?) : Except Failure Namespace := do
  let mocks ← catalog.rules.mapM fun rule => do
    return (rule.name, ← mockOf categories catalog rule natives)
  return ⟨Members.ofPairs mocks, catalog⟩

/-- The mock with a name. -/
def get? (ns : Namespace) (name : String) : Option Mock := Members.get? name ns.mocks

/-- The names, in order. -/
def names (ns : Namespace) : List String := Members.keys ns.mocks

/-- The mocks of a category. -/
def byCategory (ns : Namespace) (category : Category) : List Mock :=
  (ns.mocks.map (·.2)).filter fun mock => mock.spec.category == category

/-- The mock with a name; an unknown one is a fault. -/
def get (ns : Namespace) (name : String) : Except Fault Mock :=
  match ns.get? name with
  | some mock => .ok mock
  | none => .error .missingKey

/-- The mock of an operator. -/
def forSymbol (ns : Namespace) (symbol : String) : Except Failure Mock := do
  let spec ← ns.catalog.table.get symbol
  ns.get spec.replacement

/-- The names that a program finds when the mocks are installed in it. -/
def installed (ns : Namespace) : List String := ns.names ++ [markerName]

/-- How a namespace is shown. -/
def display (ns : Namespace) : String :=
  "MockNamespace(" ++ toString ns.mocks.length ++ " mocks)"

end Namespace

end TaintWeave
