import TaintWeave.Sexp

/-!
# Derivations

A derivation tells how a tainted value has come about: from which sources,
through which operations, and with which untainted operands. Its text is a
provenance label.

* `Derivation.toText`: the label of a derivation.
* `Derivation.walk`: a derivation and all its parts, from left to right.
-/

namespace TaintWeave

/-- A derivation. -/
inductive Derivation where
  /-- An operation on operands. -/
  | operation (symbol : String) (operands : List Derivation)
  /-- An operand without taint, by its text. -/
  | value (text : String)
  /-- A source of taint, by its name. -/
  | source (name : String)
  deriving Inhabited

namespace Derivation

/-- The kind of a derivation. -/
def kind : Derivation → String
  | operation _ _ => "operation"
  | value _ => "value"
  | source _ => "source"

/-- The symbol, the text or the name at the root. -/
def content : Derivation → String
  | operation symbol _ => symbol
  | value text => text
  | source name => name

/-- The operands of the root. -/
def operands : Derivation → List Derivation
  | operation _ operands => operands
  | _ => []

mutual

/-- The label of a derivation. -/
def toText : Derivation → String
  | operation symbol operands => symbol ++ "(" ++ String.intercalate "," (toTexts operands) ++ ")"
  | value text => "value(" ++ text ++ ")"
  | source name => name

/-- The labels of derivations. -/
def toTexts : List Derivation → List String
  | [] => []
  | d :: ds => toText d :: toTexts ds

end

mutual

/-- A derivation and all its parts: each before its operands, and these from
    left to right. -/
def walk : Derivation → List Derivation
  | operation symbol operands => operation symbol operands :: walkAll operands
  | value text => [value text]
  | source name => [source name]

/-- Derivations and all their parts. -/
def walkAll : List Derivation → List Derivation
  | [] => []
  | d :: ds => walk d ++ walkAll ds

end

/-- The names of the sources, from left to right. -/
def sources (d : Derivation) : List String :=
  d.walk.filterMap fun
    | source name => some name
    | _ => none

/-- The symbols of the operations, from left to right. -/
def operators (d : Derivation) : List String :=
  d.walk.filterMap fun
    | operation symbol _ => some symbol
    | _ => none

mutual

/-- The number of operations on the longest way down. -/
def depth : Derivation → Nat
  | operation _ [] => 0
  | operation _ (d :: ds) => 1 + max (depth d) (depthAll ds)
  | value _ | source _ => 0

/-- The greatest depth of derivations. -/
def depthAll : List Derivation → Nat
  | [] => 0
  | d :: ds => max (depth d) (depthAll ds)

end

mutual

/-- A derivation as an S-expression. -/
def toSexp : Derivation → Sexp
  | operation symbol operands => .list (.symbol symbol :: toSexps operands)
  | value text => .list [.symbol "value", .text text]
  | source name => .symbol name

/-- Derivations as S-expressions. -/
def toSexps : List Derivation → List Sexp
  | [] => []
  | d :: ds => toSexp d :: toSexps ds

end

end Derivation

end TaintWeave
