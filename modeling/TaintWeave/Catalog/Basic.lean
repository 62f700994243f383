import TaintWeave.Catalog.Rule
import TaintWeave.Failure

/-!
# Rule catalogs

A catalog holds one rule per operator, and an index of the rules by node type
and symbol. It exists only if no two rules claim one key, and if no replacement
name is itself the symbol of a function: so at most one rule applies to a node,
and what a rule has replaced is not replaced again.

* `Catalog.ofSpecs`: the catalog of operators, or the first conflict.
* `Catalog.find`: the rule that applies to a node, by the index.
* `Catalog.matching`: the rules that apply to a node, one by one.
-/

namespace TaintWeave

/-- What a rule is found by. -/
abbrev RuleKey := NodeType × String

/-- One rule per operator, in the order of the operators. -/
structure Catalog where
  /-- The rules. -/
  rules : List Rule
  /-- The rules by their keys. -/
  index : List (RuleKey × Rule)

namespace Catalog

/-- A catalog without rules. -/
def empty : Catalog := ⟨[], []⟩

/-! ## Construction -/

/-- Puts a rule into an index under a key that is free. -/
def addKey (rule : Rule) (index : List (RuleKey × Rule)) (key : RuleKey) :
    Except Diagnostic (List (RuleKey × Rule)) :=
  match index.lookup key with
  | some first => .error (.overlappingRules first.symbol rule.symbol key.1.name key.2)
  | none => .ok (index ++ [(key, rule)])

/-- Adds the rule of an operator. -/
def add (catalog : Catalog) (spec : Spec) : Except Diagnostic Catalog := do
  let rule : Rule := ⟨spec⟩
  let index ← rule.keys.foldlM (addKey rule) catalog.index
  return ⟨catalog.rules ++ [rule], index⟩

/-- The symbols of functions. -/
def functionSymbols (catalog : Catalog) : List String :=
  (catalog.rules.filter fun r => r.category == .function).map Rule.symbol

/-- Checks that no replacement name is the symbol of a function. -/
def checkStable (catalog : Catalog) : Except Diagnostic Catalog :=
  match catalog.rules.find? fun r => catalog.functionSymbols.contains r.name with
  | some rule => .error (.unstableReplacement rule.name rule.symbol)
  | none => .ok catalog

/-- The catalog of operators. -/
def ofSpecs (specs : List Spec) : Except Diagnostic Catalog := do
  checkStable (← specs.foldlM add empty)

/-- Adds the rule of an operator whose category is not checked yet. -/
def addEntry (catalog : Catalog) (entry : Entry Value) : Except Failure Catalog := do
  if !entry.category.hasLookup then throw (.fault .wrongType)
  catalog.add (← entry.classify)

/-- The catalog of operators whose categories are not checked yet. -/
def ofEntries (entries : List (Entry Value)) : Except Failure Catalog := do
  checkStable (← entries.foldlM addEntry empty)

/-- The catalog of a table. -/
def ofTable (table : Table) : Except Diagnostic Catalog := ofSpecs table.specs

/-! ## Lookup -/

/-- The operators of a catalog as a table. -/
def table (catalog : Catalog) : Table := ⟨catalog.rules.map Rule.spec⟩

/-- Whether a document is a scalar: only that can be looked up in an index. -/
def hasLookup : Json → Bool
  | .array _ | .object _ => false
  | _ => true

/-- Whether extra members can be looked up. -/
def extraHasLookup (extra : Members Json) : Bool := extra.all fun m => hasLookup m.2

mutual

/-- Whether a node can be looked up: it holds no array and no object as data. -/
def nodeHasLookup : Node → Bool
  | .identifier name extra => slotHasLookup name && extraHasLookup extra
  | .literal value raw extra => hasLookup value && hasLookup raw && extraHasLookup extra
  | .unary _ operator argument leading extra =>
    slotHasLookup operator && nodeHasLookup argument && slotHasLookup leading &&
      extraHasLookup extra
  | .binary _ operator left right extra =>
    slotHasLookup operator && nodeHasLookup left && nodeHasLookup right && extraHasLookup extra
  | .call callee arguments extra =>
    nodeHasLookup callee && slotHasLookup arguments && extraHasLookup extra
  | .other _ fields extra => fieldsHaveLookup fields && extraHasLookup extra

/-- Whether what a slot holds can be looked up. -/
def slotHasLookup : Slot → Bool
  | .node n => nodeHasLookup n
  | .list items => slotsHaveLookup items
  | .data j => hasLookup j

/-- Whether what a list of slots holds can be looked up. -/
def slotsHaveLookup : List Slot → Bool
  | [] => true
  | s :: ss => slotHasLookup s && slotsHaveLookup ss

/-- Whether what the slots under keys hold can be looked up. -/
def fieldsHaveLookup : List (String × Slot) → Bool
  | [] => true
  | (_, s) :: rest => slotHasLookup s && fieldsHaveLookup rest

end

/-- The rule that applies to a node. It is a fault if what stands as the symbol
    cannot be looked up. -/
def find (catalog : Catalog) (n : Node) : Except Fault (Option Rule) :=
  match n.symbol? with
  | none => .ok none
  | some s =>
    if slotHasLookup s then
      .ok ((s.text?.bind fun symbol => catalog.index.lookup (n.nodeType, symbol)).filter
        fun rule => rule.accepts n)
    else .error .wrongType

/-- The rules that apply to a node. -/
def matching (catalog : Catalog) (n : Node) : List Rule :=
  catalog.rules.filter fun rule => rule.accepts n

/-- How a catalog is shown. -/
def display (catalog : Catalog) : String :=
  "RuleCatalog(" ++ toString catalog.rules.length ++ " rules)"

end Catalog

end TaintWeave
