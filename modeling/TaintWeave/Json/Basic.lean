import TaintWeave.Members
import TaintWeave.Number.Basic
import TaintWeave.Text.Shown

/-!
# JSON documents

Syntax trees and configurations are exchanged as JSON. A `Json` is a document as
a value: objects keep the order of their members, and a number is an integer or
a double as it was written.

* `Json.display`: how a document is shown in a message.
-/

namespace TaintWeave

/-- A document. -/
inductive Json where
  /-- Nothing. -/
  | null
  /-- A truth value. -/
  | boolean (b : Bool)
  /-- A number. -/
  | number (n : Number)
  /-- A text. -/
  | text (s : String)
  /-- An array. -/
  | array (items : List Json)
  /-- An object. -/
  | object (members : List (String × Json))
  deriving Inhabited

namespace Json

/-- The type of a document, as messages name it. -/
def typeName : Json → String
  | null => "NoneType"
  | boolean _ => "bool"
  | number (.int _) => "int"
  | number (.float _) => "float"
  | text _ => "str"
  | array _ => "list"
  | object _ => "dict"

/-- The characters of a text. -/
def text? : Json → Option String
  | text s => some s
  | _ => none

mutual

/-- How a document is shown. -/
def display : Json → String
  | null => "None"
  | boolean b => if b then "True" else "False"
  | number n => n.write .plain
  | text s => Text.quote s
  | array items => Text.list (displayAll items)
  | object members => Text.object (displayMembers members)

/-- How the items of an array are shown. -/
def displayAll : List Json → List String
  | [] => []
  | j :: js => display j :: displayAll js

/-- How the members of an object are shown. -/
def displayMembers : List (String × Json) → List (String × String)
  | [] => []
  | (k, j) :: rest => (k, display j) :: displayMembers rest

end

end Json

end TaintWeave
