import TaintWeave.Fault
import TaintWeave.Node.Basic
import TaintWeave.Sexp

/-!
# Syntax trees for readers

A tree is shown as an S-expression that leaves out positions and other extra
members. Where a node stands in a place that is not for nodes, it is shown with
all it holds.

* `Node.toSexp`: the S-expression of a tree. It fails when the arguments of a
  call are not a list of nodes.
* `Node.display`: a node with all it holds.
-/

namespace TaintWeave

/-- Extra members as they are shown. -/
def displayExtra (extra : Members Json) : String :=
  Text.tuple (extra.map fun m => Text.tuple [Text.quote m.1, m.2.display])

mutual

/-- A node with all it holds, as it is shown. -/
def Node.display : Node → String
  | .identifier name extra =>
    Text.record "Identifier" [("name", name.display), ("extra", displayExtra extra)]
  | .literal value raw extra =>
    Text.record "Literal"
      [("value", value.display), ("raw", raw.display), ("extra", displayExtra extra)]
  | .unary kind operator argument leading extra =>
    Text.record kind.nodeType.name
      [("operator", operator.display), ("argument", argument.display),
       ("prefix", leading.display), ("extra", displayExtra extra)]
  | .binary kind operator left right extra =>
    Text.record kind.nodeType.name
      [("operator", operator.display), ("left", left.display), ("right", right.display),
       ("extra", displayExtra extra)]
  | .call callee arguments extra =>
    Text.record "CallExpression"
      [("callee", callee.display), ("arguments", arguments.display),
       ("extra", displayExtra extra)]
  | .other type fields extra =>
    Text.record "Opaque"
      [("node_type", Text.quote type), ("fields", Text.tuple (Slot.displayFields fields)),
       ("extra", displayExtra extra)]

/-- What stands in a slot, as it is shown. -/
def Slot.display : Slot → String
  | .node n => n.display
  | .list items => Text.tuple (Slot.displayItems items)
  | .data j => j.display

/-- The items of a list of slots, as they are shown. -/
def Slot.displayItems : List Slot → List String
  | [] => []
  | s :: ss => s.display :: Slot.displayItems ss

/-- The slots under keys, as they are shown. -/
def Slot.displayFields : List (String × Slot) → List String
  | [] => []
  | (k, s) :: rest => Text.tuple [Text.quote k, s.display] :: Slot.displayFields rest

end

/-! ## S-expressions -/

mutual

/-- What stands in a slot that is not for nodes, as an S-expression. -/
def Slot.toSexp : Slot → Sexp
  | .node n => .symbol n.display
  | .list items => .list (Slot.toSexps items)
  | .data (.boolean b) => .boolean b
  | .data (.number n) => .number n
  | .data (.text s) => .text s
  | .data j => .symbol j.display

/-- The items of a list of slots, as S-expressions. -/
def Slot.toSexps : List Slot → List Sexp
  | [] => []
  | s :: ss => s.toSexp :: Slot.toSexps ss

end

/-- The value of a literal as an S-expression. -/
def Json.toSexp : Json → Sexp
  | .null => .symbol "null"
  | .boolean b => .boolean b
  | .number n => .number n
  | .text s => .text s
  | j => .text j.display

/-- A list that starts with a type. -/
def Sexp.headed (type : String) (rest : List Sexp) : Sexp := .list (.symbol type :: rest)

mutual

/-- A tree as an S-expression. -/
def Node.toSexp : Node → Except Fault Sexp
  | .identifier name _ => .ok (Sexp.headed NodeType.identifier.name [name.toSexp])
  | .literal value _ _ => .ok (Sexp.headed NodeType.literal.name [value.toSexp])
  | .unary kind operator argument _ _ => do
    let argument ← argument.toSexp
    return Sexp.headed kind.nodeType.name [operator.toSexp, argument]
  | .binary kind operator left right _ => do
    let left ← left.toSexp
    let right ← right.toSexp
    return Sexp.headed kind.nodeType.name [operator.toSexp, left, right]
  | .call callee arguments _ => do
    let callee ← callee.toSexp
    let arguments ← arguments.argumentSexps
    return Sexp.headed NodeType.call.name (callee :: arguments)
  | .other type fields _ => do
    let children ← Slot.fieldSexps fields
    return Sexp.headed type children

/-- The arguments of a call. An empty text and an empty object count as no
    arguments; what else is no list of nodes is a fault. -/
def Slot.argumentSexps : Slot → Except Fault (List Sexp)
  | .list items => Slot.argumentListSexps items
  | .data (.text s) => if s.isEmpty then .ok [] else .error .missingPart
  | .data (.object members) => if members.isEmpty then .ok [] else .error .missingPart
  | _ => .error .wrongType

/-- The arguments in a list. -/
def Slot.argumentListSexps : List Slot → Except Fault (List Sexp)
  | [] => .ok []
  | .node n :: ss => do
    let e ← n.toSexp
    let es ← Slot.argumentListSexps ss
    return e :: es
  | _ :: _ => .error .missingPart

/-- The nodes in a slot, in lists at any depth. -/
def Slot.nodeSexps : Slot → Except Fault (List Sexp)
  | .node n => n.toSexp.map fun e => [e]
  | .list items => Slot.listNodeSexps items
  | .data _ => .ok []

/-- The nodes in a list of slots. -/
def Slot.listNodeSexps : List Slot → Except Fault (List Sexp)
  | [] => .ok []
  | s :: ss => do
    let es ← s.nodeSexps
    let rest ← Slot.listNodeSexps ss
    return es ++ rest

/-- The nodes in the slots under keys. -/
def Slot.fieldSexps : List (String × Slot) → Except Fault (List Sexp)
  | [] => .ok []
  | (_, s) :: rest => do
    let es ← s.nodeSexps
    let more ← Slot.fieldSexps rest
    return es ++ more

end

end TaintWeave
