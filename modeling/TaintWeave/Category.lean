/-!
# Operator categories

Every intercepted operator belongs to one of four categories. A category decides
which nodes of a syntax tree an operator stands in, how many operands it has and
how taint passes through it.

* `Category.ofName?`: the category of a name, in any case.
-/

namespace TaintWeave

/-- The categories. -/
inductive Category where
  /-- An operator with one operand. -/
  | unary
  /-- An operator with two operands. -/
  | binary
  /-- A comparison, whose result is never tainted. -/
  | equality
  /-- A function called by its name, a sink for tainted values. -/
  | function
  deriving DecidableEq, Repr

namespace Category

/-- All categories. -/
def all : List Category := [unary, binary, equality, function]

/-- The name of a category. -/
def name : Category → String
  | unary => "unary"
  | binary => "binary"
  | equality => "equality"
  | function => "function"

/-- The name of a category in capitals. -/
def capitals : Category → String
  | unary => "UNARY"
  | binary => "BINARY"
  | equality => "EQUALITY"
  | function => "FUNCTION"

/-- The number of operands. -/
def arity : Category → Nat
  | unary | function => 1
  | binary | equality => 2

/-- The category with a name; only the case of ASCII letters is ignored, since
    no other letter has one of these names in lower case. -/
def ofName? (s : String) : Option Category :=
  all.find? fun c => c.name.toList == s.toList.map Char.toLower

/-- How a category is shown in a message. -/
def display (c : Category) : String := "<Category." ++ c.capitals ++ ": '" ++ c.name ++ "'>"

end Category

end TaintWeave
