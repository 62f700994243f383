import TaintWeave.Json.Basic

/-!
# Syntax trees

A syntax tree of the instrumented language, in the shape that JavaScript parsers
exchange (ESTree). The kinds of nodes that are replaced, or looked at to decide
that, have a constructor of their own; a node of any other type keeps its fields
in order. What a node does not need stays with it as *extra* members, positions
in the source among them.

A document may hold anything under any key, also under the name of an
identifier or the operator of an expression; so these are slots as well
(`Slot`), and only the operands proper are nodes by their type.

* `Node.children`: the nodes right below a node, from left to right.
* `Node.preorder`: a node and all nodes below it.
* `Node.mapChildren`: a node with other children.
-/

namespace TaintWeave

/-- The node types with one operand. -/
inductive UnaryKind where
  /-- An operator in front of an operand. -/
  | unary
  /-- An increment or decrement, in front or behind. -/
  | update
  deriving DecidableEq, Repr

/-- The node types with two operands. -/
inductive BinaryKind where
  /-- An operator that evaluates both operands. -/
  | binary
  /-- An operator that may leave the right operand alone. -/
  | logical
  deriving DecidableEq, Repr

mutual

/-- A node. -/
inductive Node where
  /-- A name. -/
  | identifier (name : Slot) (extra : Members Json)
  /-- A literal; `raw` is its source text, or null. -/
  | literal (value raw : Json) (extra : Members Json)
  /-- An operator with one operand; `leading` tells whether it stands in front. -/
  | unary (kind : UnaryKind) (operator : Slot) (argument : Node) (leading : Slot)
      (extra : Members Json)
  /-- An operator with two operands. -/
  | binary (kind : BinaryKind) (operator : Slot) (left right : Node) (extra : Members Json)
  /-- A call. -/
  | call (callee : Node) (arguments : Slot) (extra : Members Json)
  /-- A node of another type. -/
  | other (type : String) (fields : List (String × Slot)) (extra : Members Json)

/-- What stands under a key of a node. -/
inductive Slot where
  /-- A node. -/
  | node (n : Node)
  /-- A list of such things. -/
  | list (items : List Slot)
  /-- A scalar, or an object that is not a node. -/
  | data (j : Json)

end

/-- The types of nodes as far as rules tell them apart. -/
inductive NodeType where
  | identifier | literal | unary | update | binary | logical | call | other
  deriving DecidableEq, Repr

namespace NodeType

/-- The name of a node type in documents; other types have one each. -/
def name : NodeType → String
  | identifier => "Identifier"
  | literal => "Literal"
  | unary => "UnaryExpression"
  | update => "UpdateExpression"
  | binary => "BinaryExpression"
  | logical => "LogicalExpression"
  | call => "CallExpression"
  | other => "*"

/-- The node types with a constructor of their own. -/
def modelled : List NodeType := [identifier, literal, unary, update, binary, logical, call]

/-- The node type with a name. -/
def ofName (s : String) : NodeType := (modelled.find? fun t => t.name == s).getD other

end NodeType

/-- The node type of a kind. -/
def UnaryKind.nodeType : UnaryKind → NodeType
  | unary => .unary
  | update => .update

/-- The node type of a kind. -/
def BinaryKind.nodeType : BinaryKind → NodeType
  | binary => .binary
  | logical => .logical

/-- A text in a slot. -/
def Slot.text (s : String) : Slot := .data (.text s)

/-- The text in a slot, if that is what it holds. -/
def Slot.text? : Slot → Option String
  | .data (.text s) => some s
  | _ => none

namespace Node

/-- An identifier without extra members. -/
def named (name : String) : Node := .identifier (.text name) []

/-- The node type. -/
def nodeType : Node → NodeType
  | identifier _ _ => .identifier
  | literal _ _ _ => .literal
  | unary kind _ _ _ _ => kind.nodeType
  | binary kind _ _ _ _ => kind.nodeType
  | call _ _ _ => .call
  | other _ _ _ => .other

/-- The name of the type. -/
def type : Node → String
  | other type _ _ => type
  | n => n.nodeType.name

/-- The extra members. -/
def extra : Node → Members Json
  | identifier _ extra | literal _ _ extra | unary _ _ _ _ extra | binary _ _ _ _ extra
  | call _ _ extra | other _ _ extra => extra

/-- What stands as the name of the called function, if it is an identifier. -/
def calleeName? : Node → Option Slot
  | call (identifier name _) _ _ => some name
  | _ => none

/-- The value of a field of a node without a constructor of its own. -/
def field? (key : String) : Node → Option Slot
  | other _ fields _ => Members.get? key fields
  | _ => none

end Node

/-! ## Children -/

mutual

/-- The nodes in a slot, in lists at any depth. -/
def Slot.nodes : Slot → List Node
  | .node n => [n]
  | .list items => Slot.listNodes items
  | .data _ => []

/-- The nodes in a list of slots. -/
def Slot.listNodes : List Slot → List Node
  | [] => []
  | s :: ss => s.nodes ++ Slot.listNodes ss

end

/-- The nodes in the slots under keys. -/
def Slot.fieldNodes (fields : Members Slot) : List Node := fields.flatMap fun f => f.2.nodes

/-- The nodes right below a node, from left to right. -/
def Node.children : Node → List Node
  | .identifier _ _ | .literal _ _ _ => []
  | .unary _ _ argument _ _ => [argument]
  | .binary _ _ left right _ => [left, right]
  | .call callee arguments _ => callee :: arguments.nodes
  | .other _ fields _ => Slot.fieldNodes fields

mutual

/-- A slot with other nodes. -/
def Slot.map (f : Node → Node) : Slot → Slot
  | .node n => .node (f n)
  | .list items => .list (Slot.mapList f items)
  | .data j => .data j

/-- A list of slots with other nodes. -/
def Slot.mapList (f : Node → Node) : List Slot → List Slot
  | [] => []
  | s :: ss => s.map f :: Slot.mapList f ss

end

/-- A node with other children. -/
def Node.mapChildren (f : Node → Node) : Node → Node
  | .identifier name extra => .identifier name extra
  | .literal value raw extra => .literal value raw extra
  | .unary kind operator argument leading extra => .unary kind operator (f argument) leading extra
  | .binary kind operator left right extra => .binary kind operator (f left) (f right) extra
  | .call callee arguments extra => .call (f callee) (arguments.map f) extra
  | .other type fields extra => .other type (fields.map fun m => (m.1, m.2.map f)) extra

/-- A node with some of its children replaced; `none` if all of them stay. -/
def Node.replaceChildren (f : Node → Option Node) (n : Node) : Option Node :=
  if n.children.all fun c => (f c).isNone then none
  else some (n.mapChildren fun c => (f c).getD c)

/-! ## Traversal -/

mutual

/-- A node and all nodes below it: each before its children, and these from left
    to right. -/
def Node.preorder : Node → List Node
  | n@(.identifier _ _) | n@(.literal _ _ _) => [n]
  | n@(.unary _ _ argument _ _) => n :: argument.preorder
  | n@(.binary _ _ left right _) => n :: (left.preorder ++ right.preorder)
  | n@(.call callee arguments _) => n :: (callee.preorder ++ arguments.preorder)
  | n@(.other _ fields _) => n :: Slot.fieldPreorder fields

/-- The nodes in a slot and all nodes below them. -/
def Slot.preorder : Slot → List Node
  | .node n => n.preorder
  | .list items => Slot.listPreorder items
  | .data _ => []

/-- The nodes in a list of slots and all nodes below them. -/
def Slot.listPreorder : List Slot → List Node
  | [] => []
  | s :: ss => s.preorder ++ Slot.listPreorder ss

/-- The nodes in the slots under keys and all nodes below them. -/
def Slot.fieldPreorder : List (String × Slot) → List Node
  | [] => []
  | (_, s) :: rest => s.preorder ++ Slot.fieldPreorder rest

end

end TaintWeave
