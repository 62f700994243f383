import TaintWeave.Diagnostic.Basic
import TaintWeave.Members
import TaintWeave.Native
import TaintWeave.Text.Identifier

/-!
# Operator tables

The operators and functions that are intercepted: the category of each, the name
that replaces it and the native that implements it. In a table symbols are
distinct and so are replacement names, these are identifiers, and every native
exists; so rules and mocks that are built from one table belong together one to
one.

* `Table.ofEntries`: the table of entries as a host gives them, or the error of
  the first entry that does not fit.
* `Table.ofMapping`: the same from replacement names by category and symbol.
* `Table.standard`: the operators of the language that are intercepted.
-/

namespace TaintWeave

/-- An operator with a category of some type: a `Category` in a table, and any
    value while it is not checked. -/
structure Entry (κ : Type) where
  /-- The operator in source text. -/
  symbol : String
  /-- Its category. -/
  category : κ
  /-- The name that replaces it. -/
  replacement : String
  /-- The name of its native. -/
  native : String
  deriving DecidableEq, Repr

/-- An operator of a table. -/
abbrev Spec := Entry Category

/-- The number of operands. -/
def Spec.arity (spec : Spec) : Nat := spec.category.arity

/-- An operator whose category is not checked, from one that is. -/
def Spec.toEntry (spec : Spec) : Entry Value :=
  ⟨spec.symbol, .category spec.category, spec.replacement, spec.native⟩

namespace Entry

/-- How a category is shown, if it is there at all. -/
def shownCategory (entry : Entry Value) : Option String :=
  match entry.category with
  | .null => none
  | v => some (v.display.getD "")

/-- The operator if its category is one. -/
def classify (entry : Entry Value) : Except Diagnostic Spec :=
  match entry.category with
  | .category c => .ok ⟨entry.symbol, c, entry.replacement, entry.native⟩
  | _ => .error (.unclassifiedOperator (Text.quote entry.symbol) entry.shownCategory)

end Entry

/-- A category given as a value: a category, or a text that names one. -/
def Category.ofValue (v : Value) : Except Diagnostic Category :=
  match v with
  | .category c => .ok c
  | v =>
    match v.text?.bind Category.ofName? with
    | some c => .ok c
    | none => .error (.unknownCategory (v.display.getD ""))

/-- A checked collection of operators, in order. -/
structure Table where
  /-- The operators. -/
  specs : List Spec
  deriving DecidableEq, Repr

namespace Table

/-! ## Construction -/

/-- Checks an entry against the operators before it. -/
def check (before : List Spec) (entry : Entry Value) : Except Diagnostic Spec := do
  let spec ← entry.classify
  if let some first := before.find? fun s => s.symbol == spec.symbol then
    throw (.duplicateSymbol spec.symbol first.category spec.category)
  if let some first := before.find? fun s => s.replacement == spec.replacement then
    throw (.duplicateReplacement spec.replacement first.symbol spec.symbol)
  if !Text.isIdentifier spec.replacement.toList then
    throw (.invalidReplacement spec.replacement)
  if (Native.ofName? spec.native).isNone then
    throw (.unknownNative spec.native spec.symbol)
  return spec

/-- The table of entries. -/
def ofEntries (entries : List (Entry Value)) : Except Diagnostic Table :=
  (entries.foldlM (fun specs entry => do return specs ++ [← check specs entry]) []).map Table.mk

/-- The operators of the language and their natives. -/
def standardNatives : Members String :=
  [("~", "js_bitwise_not"), ("!", "js_logical_not"), ("typeof", "js_typeof"),
   ("++", "js_increment"), ("--", "js_decrement"), ("+", "js_add"), ("-", "js_subtract"),
   ("*", "js_multiply"), ("/", "js_divide"), ("%", "js_modulus"), ("&", "js_bitwise_and"),
   ("|", "js_bitwise_or"), ("^", "js_bitwise_xor"), (">>", "js_shift_right"),
   ("<<", "js_shift_left"), ("&&", "js_logical_and"), ("||", "js_logical_or"),
   (">", "js_greater"), ("<", "js_lesser"), (">=", "js_greater_equal"),
   ("<=", "js_lesser_equal"), ("==", "js_double_equal"), ("===", "js_triple_equal"),
   ("!=", "js_double_inequal"), ("!==", "js_triple_inequal"), ("eval", "js_eval")]

/-- The entries of one category in a mapping. -/
def mappingEntries (natives : Members String) (category : Category) (names : Members String) :
    Except Diagnostic (List (Entry Value)) :=
  names.mapM fun (symbol, name) =>
    match Members.get? symbol natives with
    | some native => .ok ⟨symbol, .category category, name, native⟩
    | none => .error (.unregisteredNative symbol)

/-- The table of replacement names by category name and symbol. -/
def ofMapping (mapping : Members (Members String)) (natives : Members String := standardNatives) :
    Except Diagnostic Table := do
  let entries ← mapping.mapM fun (name, names) => do
    mappingEntries natives (← Category.ofValue (.text name)) names
  ofEntries entries.flatten

/-- The operators that are intercepted unless a host chooses others. -/
def standard : Table where
  specs :=
    [⟨"~", .unary, "__bitwise_not__", "js_bitwise_not"⟩,
     ⟨"!", .unary, "__logical_not__", "js_logical_not"⟩,
     ⟨"typeof", .unary, "__typeof__", "js_typeof"⟩,
     ⟨"++", .unary, "__increment__", "js_increment"⟩,
     ⟨"--", .unary, "__decrement__", "js_decrement"⟩,
     ⟨"+", .binary, "__plus__", "js_add"⟩,
     ⟨"-", .binary, "__minus__", "js_subtract"⟩,
     ⟨"*", .binary, "__multiply__", "js_multiply"⟩,
     ⟨"/", .binary, "__divide__", "js_divide"⟩,
     ⟨"%", .binary, "__modulus__", "js_modulus"⟩,
     ⟨"&", .binary, "__bitwise_and__", "js_bitwise_and"⟩,
     ⟨"|", .binary, "__bitwise_or__", "js_bitwise_or"⟩,
     ⟨"^", .binary, "__xor__", "js_bitwise_xor"⟩,
     ⟨">>", .binary, "__shift_right__", "js_shift_right"⟩,
     ⟨"<<", .binary, "__shift_left__", "js_shift_left"⟩,
     ⟨"&&", .binary, "__logical_and__", "js_logical_and"⟩,
     ⟨"||", .binary, "__logical_or__", "js_logical_or"⟩,
     ⟨">", .binary, "__greater__", "js_greater"⟩,
     ⟨"<", .binary, "__lesser__", "js_lesser"⟩,
     ⟨">=", .binary, "__greater_equal__", "js_greater_equal"⟩,
     ⟨"<=", .binary, "__lesser_equal__", "js_lesser_equal"⟩,
     ⟨"==", .equality, "__double_equal__", "js_double_equal"⟩,
     ⟨"===", .equality, "__triple_equal__", "js_triple_equal"⟩,
     ⟨"!=", .equality, "__double_inequal__", "js_double_inequal"⟩,
     ⟨"!==", .equality, "__triple_inequal__", "js_triple_inequal"⟩,
     ⟨"eval", .function, "__eval__", "js_eval"⟩]

/-! ## Queries -/

/-- The operator with a symbol. -/
def get (table : Table) (symbol : String) : Except Diagnostic Spec :=
  match table.specs.find? fun s => s.symbol == symbol with
  | some spec => .ok spec
  | none => .error (.unknownSymbol symbol)

/-- The operator with a replacement name. -/
def byReplacement (table : Table) (name : String) : Except Diagnostic Spec :=
  match table.specs.find? fun s => s.replacement == name with
  | some spec => .ok spec
  | none => .error (.unknownReplacement name)

/-- Whether a symbol is in the table. -/
def contains (table : Table) (symbol : String) : Bool :=
  table.specs.any fun s => s.symbol == symbol

/-- The operators of a category. -/
def inCategory (table : Table) (category : Category) : List Spec :=
  table.specs.filter fun s => s.category == category

/-- The replacement names. -/
def replacements (table : Table) : List String := table.specs.map Entry.replacement

/-- How a table is shown: by the sizes of its categories. -/
def display (table : Table) : String :=
  let counts := Category.all.map fun c => c.name ++ "=" ++ toString (table.inCategory c).length
  "OperatorTable(" ++ String.intercalate ", " counts ++ ")"

end Table

end TaintWeave
