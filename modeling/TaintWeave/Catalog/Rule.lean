import TaintWeave.Node.Basic
import TaintWeave.Operator.Table

/-!
# Replacement rules

Every operator of a table has one rule. The category decides which nodes the
rule applies to and what becomes of them:

* a unary operator is replaced by a call with its operand;
* a binary operator or an equality by a call with both operands, left before
  right;
* in a call of a function by its name, only the name is replaced.

The call takes over the extra members of the node, so positions are kept.

* `Rule.accepts`: whether a rule applies to a node.
* `Rule.transform`: what becomes of it.
-/

namespace TaintWeave

/-- The rule of an operator. -/
structure Rule where
  /-- The operator. -/
  spec : Spec
  deriving DecidableEq, Repr

/-- The types of the nodes that an operator of a category stands in. -/
def Category.nodeTypes : Category → List NodeType
  | unary => [.unary, .update]
  | binary => [.binary, .logical]
  | equality => [.binary]
  | function => [.call]

namespace Node

/-- What stands as the operator of a node. -/
def operator? : Node → Option Slot
  | unary _ operator _ _ _ | binary _ operator _ _ _ => some operator
  | _ => none

/-- What a rule is looked up by: the operator, or the name of the called
    function. A null there counts as nothing. -/
def symbol? (n : Node) : Option Slot :=
  let found := match n with
    | call _ _ _ => n.calleeName?
    | _ => n.operator?
  match found with
  | some (.data .null) => none
  | found => found

/-- The call of a replacement, with the extra members of the node it replaces. -/
def replacement (name : String) (operands : List Node) (extra : Members Json) : Node :=
  .call (named name) (.list (operands.map Slot.node)) extra

end Node

namespace Rule

/-- The operator symbol. -/
def symbol (rule : Rule) : String := rule.spec.symbol

/-- The name that replaces the operator. -/
def name (rule : Rule) : String := rule.spec.replacement

/-- The category of the operator. -/
def category (rule : Rule) : Category := rule.spec.category

/-- The node types and symbols that the rule claims. -/
def keys (rule : Rule) : List (NodeType × String) :=
  rule.category.nodeTypes.map fun t => (t, rule.symbol)

/-- Whether the rule applies to a node. -/
def accepts (rule : Rule) (n : Node) : Bool :=
  rule.category.nodeTypes.contains n.nodeType &&
    (n.symbol?.bind Slot.text?) == some rule.symbol

/-- What becomes of a node that the rule applies to. -/
def transform (rule : Rule) : Node → Node
  | .unary _ _ argument _ extra => .replacement rule.name [argument] extra
  | .binary _ _ left right extra => .replacement rule.name [left, right] extra
  | .call (.identifier _ calleeExtra) arguments extra =>
    .call (.identifier (.text rule.name) calleeExtra) arguments extra
  | n => n

/-- What the rule makes of any node: one that it does not apply to stays. -/
def apply (rule : Rule) (n : Node) : Node := if rule.accepts n then rule.transform n else n

/-- How a rule is shown. -/
def display (rule : Rule) : String :=
  "RewriteRule(" ++ Text.quote rule.symbol ++ " -> " ++ rule.name ++ ")"

end Rule

end TaintWeave
