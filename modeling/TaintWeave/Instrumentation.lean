import TaintWeave.Catalog.Basic
import TaintWeave.Node.Document

/-!
# Instrumentation

A tree is instrumented from the leaves up: a node with instrumented children is
replaced if a rule of the catalog applies to it, and kept otherwise. The pass
counts the nodes that it visits and the replacements by name.

* `Catalog.instrument`: the instrumented tree and the counts.
* `Catalog.instrumentJson`: the instrumented document.
-/

namespace TaintWeave

/-- What a pass has counted. -/
structure Stats where
  /-- The nodes visited. -/
  visited : Nat := 0
  /-- The replacement name of every replacement, in order. -/
  replaced : List String := []
  deriving DecidableEq, Repr

namespace Stats

/-- The number of replacements. -/
def total (stats : Stats) : Nat := stats.replaced.length

/-- Whether nothing was replaced, so that the tree is the one it was. -/
def isUnchanged (stats : Stats) : Bool := stats.replaced.isEmpty

/-- The replacement names in alphabetical order, each with its count. -/
def counts (stats : Stats) : List (String × Nat) :=
  (stats.replaced.eraseDups.mergeSort (· ≤ ·)).map fun name => (name, stats.replaced.count name)

end Stats

/-- A pass over a tree. -/
abbrev Pass := StateT Stats (Except Fault)

namespace Catalog

/-- Visits a node whose children are instrumented. -/
def visit (catalog : Catalog) (n : Node) : Pass Node := do
  let found ← catalog.find n
  match found with
  | none =>
    modify fun stats => { stats with visited := stats.visited + 1 }
    return n
  | some rule =>
    modify fun stats =>
      { visited := stats.visited + 1, replaced := stats.replaced ++ [rule.name] }
    return rule.transform n

mutual

/-- Instruments a node. -/
def instrumentNode (catalog : Catalog) : Node → Pass Node
  | .identifier name extra => catalog.visit (.identifier name extra)
  | .literal value raw extra => catalog.visit (.literal value raw extra)
  | .unary kind operator argument leading extra => do
    let argument ← instrumentNode catalog argument
    catalog.visit (.unary kind operator argument leading extra)
  | .binary kind operator left right extra => do
    let left ← instrumentNode catalog left
    let right ← instrumentNode catalog right
    catalog.visit (.binary kind operator left right extra)
  | .call callee arguments extra => do
    let callee ← instrumentNode catalog callee
    let arguments ← instrumentSlot catalog arguments
    catalog.visit (.call callee arguments extra)
  | .other type fields extra => do
    let fields ← instrumentFields catalog fields
    catalog.visit (.other type fields extra)

/-- Instruments the nodes in a slot. -/
def instrumentSlot (catalog : Catalog) : Slot → Pass Slot
  | .node n => do return .node (← instrumentNode catalog n)
  | .list items => do return .list (← instrumentSlots catalog items)
  | .data j => return .data j

/-- Instruments the nodes in a list of slots. -/
def instrumentSlots (catalog : Catalog) : List Slot → Pass (List Slot)
  | [] => return []
  | s :: ss => do
    let s ← instrumentSlot catalog s
    let ss ← instrumentSlots catalog ss
    return s :: ss

/-- Instruments the nodes in the slots under keys. -/
def instrumentFields (catalog : Catalog) : List (String × Slot) → Pass (List (String × Slot))
  | [] => return []
  | (k, s) :: rest => do
    let s ← instrumentSlot catalog s
    let rest ← instrumentFields catalog rest
    return (k, s) :: rest

end

/-- Instruments a tree; gives the new tree and what was counted. -/
def instrument (catalog : Catalog) (n : Node) : Except Fault (Node × Stats) :=
  (instrumentNode catalog n).run {}

/-- Instruments the tree of a document, as a document again. -/
def instrumentJson (catalog : Catalog) (document : Json) : Except Failure Json := do
  let tree ← Node.ofJson document
  let (tree, _) ← catalog.instrument tree
  tree.toJson

end Catalog

end TaintWeave
