import TaintWeave.Category
import TaintWeave.Number.Basic
import TaintWeave.Text.Shown

/-!
# Values

The values that an instrumented program computes with, together with those that
its host hands in: symbols, fixed sequences and categories. Whatever is not a
primitive has an identity, by which it is compared.

* `Value.kind`: the type of a value in the language.
* `Value.sameObject`: whether two values are the same object.
* `Value.display`: how a value is shown in messages and generated code.
-/

namespace TaintWeave

/-- What tells two objects apart. -/
abbrev Identity := Nat

/-- The two sequences. -/
inductive Shape where
  /-- An array. -/
  | list
  /-- A sequence of fixed length. -/
  | tuple
  deriving DecidableEq, Repr

/-- A value. -/
inductive Value where
  /-- The value of what has none. -/
  | undefined
  /-- The null object. -/
  | null
  /-- A truth value. -/
  | boolean (b : Bool)
  /-- A number. -/
  | number (n : Number)
  /-- A text. -/
  | text (s : String)
  /-- A text that is written without quotes in an S-expression. -/
  | symbol (s : String)
  /-- A sequence. -/
  | sequence (id : Identity) (shape : Shape) (items : List Value)
  /-- An object with properties, in order. -/
  | object (id : Identity) (properties : List (String × Value))
  /-- A function, with its name if it has one. -/
  | function (id : Identity) (name : Option String)
  /-- A raw value together with the label of its provenance. -/
  | tainted (id : Identity) (raw : Value) (label : String)
  /-- An operator category. -/
  | category (c : Category)
  deriving Inhabited

namespace Value

/-- The types of the language. -/
inductive Kind where
  | undefined | null | boolean | number | text | object
  deriving DecidableEq, Repr

/-- The type of a value. -/
def kind : Value → Kind
  | undefined => .undefined
  | null => .null
  | boolean _ => .boolean
  | number _ => .number
  | text _ | symbol _ => .text
  | sequence _ _ _ | object _ _ | function _ _ | tainted _ _ _ | category _ => .object

/-- The characters of a text. -/
def text? : Value → Option String
  | text s | symbol s => some s
  | _ => none

/-- What tells a sequence apart from others. There is one empty tuple, which
    nothing has to tell apart. -/
def sequenceIdentity (id : Identity) : Shape → List Value → Option Identity
  | .tuple, [] => none
  | _, _ => some id

/-- Whether two values are one object. There is one of each category. -/
def sameObject : Value → Value → Bool
  | sequence i s vs, sequence j t ws => sequenceIdentity i s vs == sequenceIdentity j t ws
  | object i _, object j _ => i == j
  | function i _, function j _ => i == j
  | tainted i _ _, tainted j _ _ => i == j
  | category c, category d => c == d
  | _, _ => false

mutual

/-- Whether a value can be a key: a list and an object cannot, nor can a tuple
    that holds one. -/
def hasLookup : Value → Bool
  | sequence _ .tuple items => allHaveLookup items
  | sequence _ .list _ | object _ _ => false
  | _ => true

/-- Whether all of several values can be keys. -/
def allHaveLookup : List Value → Bool
  | [] => true
  | v :: vs => hasLookup v && allHaveLookup vs

end

/-! ## Display -/

mutual

/-- How a value is shown. A function has no stable form, nor has what holds
    one. -/
def display : Value → Option String
  | undefined => some "undefined"
  | null => some "None"
  | boolean b => some (if b then "True" else "False")
  | number n => some (n.write .plain)
  | text s | symbol s => some (Text.quote s)
  | sequence _ .list items => (displayAll items).map Text.list
  | sequence _ .tuple items => (displayAll items).map Text.tuple
  | object _ properties => (displayProperties properties).map Text.object
  | function _ _ => none
  | tainted _ raw label => (display raw).map fun shown =>
    "TaintedValue(" ++ shown ++ ", label=" ++ Text.quote label ++ ")"
  | category c => some c.display

/-- How the items of a sequence are shown. -/
def displayAll : List Value → Option (List String)
  | [] => some []
  | v :: vs => (display v).bind fun shown => (displayAll vs).map (shown :: ·)

/-- How the properties of an object are shown. -/
def displayProperties : List (String × Value) → Option (List (String × String))
  | [] => some []
  | (k, v) :: rest => (display v).bind fun shown =>
    (displayProperties rest).map ((k, shown) :: ·)

end

end Value

end TaintWeave
