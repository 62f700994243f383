import TaintWeave.Diagnostic.Basic
import TaintWeave.Fault
import TaintWeave.Node.Basic

/-!
# Syntax trees as documents

A node is an object with a text under `type`. Its fields are converted in order:
an object with a `type` is a node, an array a list, and all else is data. Fields
that a type does not model, positions and the value of a literal are never
searched for nodes.

* `Node.ofJson`: the tree of a document, or the first thing wrong with it.
* `Node.toJson`: the document of a tree. It fails when a node stands where no
  child is expected, such as in the name of an identifier.
-/

namespace TaintWeave

/-- The keys of positions in the source. -/
def positionKeys : List String := ["loc", "range", "start", "end"]

/-- The keys that a node type models, in order. -/
def NodeType.keys : NodeType → List String
  | identifier => ["name"]
  | literal => ["value", "raw"]
  | unary | update => ["operator", "argument", "prefix"]
  | binary | logical => ["operator", "left", "right"]
  | call => ["callee", "arguments"]
  | other => []

/-! ## Reading -/

/-- The results of converting the values under keys. -/
abbrev Conversions := Members (Except Diagnostic Slot)

namespace Conversions

/-- The converted values under those of some keys that are present, in the order
    of these keys. -/
def select (conversions : Conversions) (keys : List String) :
    Except Diagnostic (Members Slot) :=
  keys.foldlM (fun found key =>
    match Members.get? key conversions with
    | none => .ok found
    | some result => result.map fun s => found ++ [(key, s)]) []

end Conversions

/-- A value that a node type requires. -/
def requireKey {α : Type} (type : String) (found : Members α) (key : String) :
    Except Diagnostic α :=
  match Members.get? key found with
  | some s => .ok s
  | none => .error (.nodeConversion (type ++ " node is missing " ++ Text.quote key))

/-- A value that must be a node. -/
def requireNode (type key : String) : Slot → Except Diagnostic Node
  | .node n => .ok n
  | _ => .error (.nodeConversion (type ++ "." ++ key ++ " is not a node"))

namespace Node

/-- The members of a node that its type does not model. -/
def extraMembers (t : NodeType) (members : Members Json) : Members Json :=
  members.filter fun m => m.1 != "type" && !t.keys.contains m.1

/-- The positions of a node without a constructor of its own, in a fixed order. -/
def positions (members : Members Json) : Members Json :=
  positionKeys.filterMap fun key => (Members.get? key members).map fun j => (key, j)

/-- Whether a key holds a field of a node without a constructor of its own. -/
def isFieldKey (key : String) : Bool := key != "type" && !positionKeys.contains key

/-- The node with members of which the values are converted already. First the
    errors in the values that it needs count, then missing keys, and last values
    that are not nodes. -/
def ofMembers (members : Members Json) (conversions : Conversions) : Except Diagnostic Node :=
  match Members.get? "type" members with
  | some (.text type) =>
    let t := NodeType.ofName type
    let extra := extraMembers t members
    match t with
    | .identifier => do
      let found ← conversions.select t.keys
      return .identifier (← requireKey type found "name") extra
    | .literal => do
      let value ← requireKey type members "value"
      return .literal value ((Members.get? "raw" members).getD .null) extra
    | .unary => unaryOfMembers .unary type extra conversions
    | .update => unaryOfMembers .update type extra conversions
    | .binary => binaryOfMembers .binary type extra conversions
    | .logical => binaryOfMembers .logical type extra conversions
    | .call => do
      let found ← conversions.select t.keys
      let callee ← requireKey type found "callee"
      let arguments ← requireKey type found "arguments"
      return .call (← requireNode type "callee" callee) arguments extra
    | .other => do
      let keys := members.keys.filter isFieldKey
      return .other type (← conversions.select keys) (positions members)
  | _ =>
    .error (.nodeConversion "ESTree node has no 'type' string"
      (String.ofList ((Json.object members).display.toList.take 80)))
where
  unaryOfMembers (kind : UnaryKind) (type : String) (extra : Members Json)
      (conversions : Conversions) : Except Diagnostic Node := do
    let found ← conversions.select kind.nodeType.keys
    let operator ← requireKey type found "operator"
    let argument ← requireKey type found "argument"
    -- An operator stands in front unless it is an update.
    let leading := (Members.get? "prefix" found).getD (.data (.boolean (kind == .unary)))
    return .unary kind operator (← requireNode type "argument" argument) leading extra
  binaryOfMembers (kind : BinaryKind) (type : String) (extra : Members Json)
      (conversions : Conversions) : Except Diagnostic Node := do
    let found ← conversions.select kind.nodeType.keys
    let operator ← requireKey type found "operator"
    let left ← requireKey type found "left"
    let right ← requireKey type found "right"
    return .binary kind operator (← requireNode type "left" left)
      (← requireNode type "right" right) extra

end Node

mutual

/-- A value under a key of a node. -/
def Slot.ofJson : Json → Except Diagnostic Slot
  | .array items => (Slot.ofItems items).map Slot.list
  | .object members =>
    if Members.hasKey "type" members then
      (Node.ofMembers members (Slot.convertMembers members)).map Slot.node
    else .ok (.data (.object members))
  | .null => .ok (.data .null)
  | .boolean b => .ok (.data (.boolean b))
  | .number n => .ok (.data (.number n))
  | .text s => .ok (.data (.text s))

/-- The items of an array; the first error in them counts. -/
def Slot.ofItems : List Json → Except Diagnostic (List Slot)
  | [] => .ok []
  | j :: js => do
    let s ← Slot.ofJson j
    let ss ← Slot.ofItems js
    return s :: ss

/-- The values of an object, each converted on its own. -/
def Slot.convertMembers : List (String × Json) → Conversions
  | [] => []
  | (k, j) :: rest => (k, Slot.ofJson j) :: Slot.convertMembers rest

end

/-- The tree of a document. -/
def Node.ofJson : Json → Except Diagnostic Node
  | .object members => Node.ofMembers members (Slot.convertMembers members)
  | j => .error (.nodeConversion ("expected an ESTree node object, got " ++ j.typeName))

/-! ## Writing -/

mutual

/-- The value in a slot that is not for nodes. -/
def Slot.plainJson : Slot → Except Fault Json
  | .node _ => .error .missingKey
  | .list items => (Slot.plainItems items).map Json.array
  | .data j => .ok j

/-- The values in a list of slots that are not for nodes. -/
def Slot.plainItems : List Slot → Except Fault (List Json)
  | [] => .ok []
  | s :: ss => do
    let j ← s.plainJson
    let js ← Slot.plainItems ss
    return j :: js

end

/-- An object with a type, members and extra members. An extra member takes the
    place of another under its key. -/
def Node.object (type : String) (members extra : Members Json) : Json :=
  .object (Members.insertAll (Members.insertAll [("type", .text type)] members) extra)

mutual

/-- The document of a tree. -/
def Node.toJson : Node → Except Fault Json
  | .identifier name extra => do
    let name ← name.plainJson
    return Node.object NodeType.identifier.name [("name", name)] extra
  | .literal value raw extra =>
    let members := match raw with
      | .null => [("value", value)]
      | raw => [("value", value), ("raw", raw)]
    .ok (Node.object NodeType.literal.name members extra)
  | .unary kind operator argument leading extra => do
    let operator ← operator.plainJson
    let argument ← argument.toJson
    let leading ← leading.plainJson
    return Node.object kind.nodeType.name
      [("operator", operator), ("argument", argument), ("prefix", leading)] extra
  | .binary kind operator left right extra => do
    let operator ← operator.plainJson
    let left ← left.toJson
    let right ← right.toJson
    return Node.object kind.nodeType.name
      [("operator", operator), ("left", left), ("right", right)] extra
  | .call callee arguments extra => do
    let callee ← callee.toJson
    let arguments ← arguments.toJson
    return Node.object NodeType.call.name [("callee", callee), ("arguments", arguments)] extra
  | .other type fields extra => do
    let members ← Slot.fieldsToJson fields
    return Node.object type members extra

/-- The value in a slot that may hold nodes. -/
def Slot.toJson : Slot → Except Fault Json
  | .node n => n.toJson
  | .list items => (Slot.itemsToJson items).map Json.array
  | .data j => .ok j

/-- The values in a list of slots. -/
def Slot.itemsToJson : List Slot → Except Fault (List Json)
  | [] => .ok []
  | s :: ss => do
    let j ← s.toJson
    let js ← Slot.itemsToJson ss
    return j :: js

/-- The values in the slots under keys. -/
def Slot.fieldsToJson : List (String × Slot) → Except Fault (Members Json)
  | [] => .ok []
  | (k, s) :: rest => do
    let j ← s.toJson
    let js ← Slot.fieldsToJson rest
    return (k, j) :: js

end

end TaintWeave
