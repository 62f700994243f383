import TaintWeave.Proofs.Generate.Bindings
import TaintWeave.Proofs.Instrumentation.Composition

/-!
# Emitted calls and their mocks

A table is made into three things: the rules by which trees are instrumented, the mocks of a
namespace and the definitions of a generated module. They belong together. Every call that a rule
puts into a tree names a mock of the namespace, that of the operator that was there before, and has
the operands of the operator. A module for all mocks defines the same names in the same order.

* `Catalog.image_mem_preorder_image`: what becomes of a node is a node of the instrumented tree.
* `Catalog.Emits`: a call that is put in the place of a node, and what it resolves to.
* `Catalog.emits_of_instrument`: such calls in instrumented trees.
* `Namespace.resolves_emitted_calls`: rules, mocks and definitions of one table together.
-/

namespace TaintWeave

/-! ## Instrumented nodes -/

namespace Catalog

variable {catalog : Catalog} {rule : Rule} {n t : Node}

/-- The nodes of a tree that are no identifiers. -/
def properNodes (n : Node) : List Node := n.preorder.filter fun m => m.identifierName?.isNone

/-- A node that is no identifier is among them if it is in the tree. -/
theorem mem_properNodes (hname : n.identifierName? = none) :
    n ∈ properNodes t ↔ n ∈ t.preorder := by
  rw [properNodes, List.mem_filter, hname]
  exact and_iff_left rfl

/-- A node below the children of a node is below those of what a rule makes of it, unless it is an
    identifier. -/
theorem exists_mem_children_transform (h : rule.accepts t = true)
    (hname : n.identifierName? = none) (hn : ∃ c ∈ t.children, n ∈ c.preorder) :
    ∃ c ∈ (rule.transform t).children, n ∈ c.preorder := by
  have hidentifier (name : Slot) (extra : Members Json) :
      properNodes (.identifier name extra) = [] := rfl
  simp only [← mem_properNodes hname, ← List.mem_flatMap] at hn ⊢
  rw [Rule.flatMap_children_transform h hidentifier]
  exact hn

/-- What becomes of a node of a tree is a node of the instrumented tree, unless it is an identifier,
    which may be called under another name. -/
theorem image_mem_preorder_image (hc : catalog.Coherent) (hname : n.identifierName? = none)
    (hn : n ∈ t.preorder) : n.image catalog.replace ∈ (t.image catalog.replace).preorder := by
  have himage : (n.image catalog.replace).identifierName? = none := by
    rw [identifierName?_image, hname]
  induction t using Node.induction_on_children with
  | step t ih =>
    rcases Node.mem_preorder.1 hn with rfl | ⟨c, hchild, hn⟩
    · exact Node.mem_preorder_self _
    -- Below the root, it is in the image of a child.
    · have hbelow : ∃ c ∈ (t.mapChildren (Node.image catalog.replace)).children,
          n.image catalog.replace ∈ c.preorder := by
        rw [Node.children_mapChildren]
        exact ⟨_, List.mem_map_of_mem hchild, ih c hchild hn⟩
      refine Node.mem_preorder.2 (.inr ?_)
      rcases image_eq_transform_or hc t with ⟨rule, -, haccepts, hroot⟩ | hroot
      · rw [hroot]
        have haccepts' := accepts_mapChildren_image catalog rule t ▸ haccepts
        exact exists_mem_children_transform haccepts' himage hbelow
      · rw [hroot]
        exact hbelow

/-- A rule replaces a node: it is the one that the pass finds when it visits the node, with its
    children instrumented. -/
def Replaces (catalog : Catalog) (rule : Rule) (n : Node) : Prop :=
  catalog.find (n.mapChildren (Node.image catalog.replace)) = .ok (some rule)

/-- In the place of a node that a rule replaces, an instrumented tree has a call that resolves to
    the mock of the operator. -/
structure Emits (catalog : Catalog) (ns : Namespace) (rule : Rule) (n r : Node) : Prop where
  /-- The rule is that of an operator of the catalog. -/
  rule_mem : rule ∈ catalog.rules
  /-- The node stands for the operator. -/
  symbol : n.symbol? = some (.text rule.symbol)
  /-- Its type is one of the category. -/
  nodeType : n.nodeType ∈ rule.category.nodeTypes
  /-- What becomes of it is in the tree. -/
  mem : n.image catalog.replace ∈ r.preorder
  /-- It is a call by the name of the rule. -/
  callee : (n.image catalog.replace).calleeName? = some (.text rule.name)
  /-- The name is that of the mock of the operator. -/
  resolves : ∃ mock, ns.get? rule.name = some mock ∧ mock.spec = rule.spec
  /-- Unless a function is called, the operands are those of the node, instrumented. -/
  operands : rule.category ≠ .function → n.children.length = rule.spec.arity ∧
    n.image catalog.replace =
      .replacement rule.name (n.children.map (Node.image catalog.replace)) n.extra

/-- What becomes of a node that a rule replaces: a call of its name, with the instrumented children
    of the node unless this is a call itself. -/
theorem image_of_replaces (hc : catalog.Coherent) (hrule : rule ∈ catalog.rules)
    (haccepts : rule.accepts n = true) :
    (n.image catalog.replace).calleeName? = some (.text rule.name) ∧
      (rule.category ≠ .function → n.children.length = rule.spec.arity ∧
        n.image catalog.replace =
          .replacement rule.name (n.children.map (Node.image catalog.replace)) n.extra) := by
  rw [image_of_accepts hc hrule haccepts]
  cases Rule.Accepts.of_accepts haccepts with
  | unary hcategory =>
    have harity : rule.spec.arity = 1 := congrArg Category.arity hcategory
    exact ⟨rfl, fun _ => ⟨harity.symm, rfl⟩⟩
  | binary hcategory =>
    have harity : rule.spec.arity = 2 := by
      rcases hcategory with hcategory | ⟨hcategory, -⟩ <;> exact congrArg Category.arity hcategory
    exact ⟨rfl, fun _ => ⟨harity.symm, rfl⟩⟩
  | call hcategory =>
    refine ⟨?_, fun hfunction => absurd hcategory hfunction⟩
    rw [Node.mapChildren, image_identifier]
    rfl

/-- A rule that replaces a node of a tree puts a call in its place that resolves to the mock of the
    operator. -/
theorem emits_of_instrument {natives : String → Option Native} {table : Table}
    (htable : table.Valid natives) (hcatalog : ofSpecs table.specs = .ok catalog) {r : Node}
    {stats : Stats} (h : catalog.instrument t = .ok (r, stats)) (hn : n ∈ t.preorder)
    (hreplaces : catalog.Replaces rule n) :
    catalog.Emits (Namespace.ofTable table catalog natives) rule n r := by
  have hc : catalog.Coherent := (valid_of_ofSpecs hcatalog).coherent
  obtain ⟨-, rfl, -⟩ := instrument_eq_ok_iff.1 h
  rw [Replaces, find_mapChildren_image] at hreplaces
  obtain ⟨hrule, haccepts⟩ := (find_eq_some_iff hc).1 hreplaces
  obtain ⟨htype, hsymbol⟩ := Rule.accepts_iff.1 haccepts
  obtain ⟨hcallee, hoperands⟩ := image_of_replaces hc hrule haccepts
  have hname : n.identifierName? = none := by
    cases Rule.Accepts.of_accepts haccepts <;> rfl
  -- The rule is that of an operator of the table, which has a mock.
  obtain ⟨spec, hspec, rfl⟩ := List.mem_map.1 (rules_of_ofSpecs hcatalog ▸ hrule)
  obtain ⟨native, hnative⟩ := htable.natives spec hspec
  have hmock : (spec.replacement, ⟨spec, native⟩) ∈ table.mocks natives := by
    refine List.mem_filterMap.2 ⟨spec, hspec, ?_⟩
    rw [Table.mock?, hnative]
    rfl
  exact {
    rule_mem := hrule
    symbol := hsymbol
    nodeType := htype
    mem := image_mem_preorder_image hc hname hn
    callee := hcallee
    resolves := ⟨_, Members.get?_of_mem htable.nodup_keys_mocks hmock, rfl⟩
    operands := hoperands }

end Catalog

/-! ## One table -/

namespace Table

/-- The mocks of a valid table are those of its operators, in order. -/
theorem Valid.map_mocks {natives : String → Option Native} {table : Table}
    (h : table.Valid natives) :
    (table.mocks natives).map (fun m => (m.1, m.2.spec)) =
      table.specs.map fun spec => (spec.replacement, spec) := by
  have hmock : ∀ spec ∈ table.specs, (mock? spec natives).map (fun m => (m.1, m.2.spec)) =
      some (spec.replacement, spec) := by
    intro spec hspec
    obtain ⟨native, hnative⟩ := h.natives spec hspec
    rw [mock?, hnative]
    rfl
  rw [mocks, List.map_filterMap, List.filterMap_congr hmock]
  exact congrFun List.filterMap_eq_map table.specs

end Table

/-- A module for all mocks of a namespace has them in order. -/
theorem Generated.exports_eq_names {ns : Namespace} {config : Config} {generated : String}
    {compile : Compiler} {g : Generated} (hnames : ns.names.Nodup)
    (hconfig : config.exportNames = []) (h : render ns config generated none compile = .ok g) :
    g.exports = ns.names := by
  have hrequested : requested ns config none = ns.names := by
    rw [requested, hconfig]
    rfl
  obtain ⟨selected, hselected, rfl, -⟩ := render_eq_ok h
  have hkeys : Members.keys selected = ns.names := hrequested ▸ (select_eq_ok hselected).1
  rw [ofMocks, Members.ofPairs_of_nodup (hkeys ▸ hnames), hkeys]

/-- Rules, mocks and definitions of one table belong together, whatever natives there are. The
    namespace has one mock per operator, under the replacement names and in order. Every call that
    is emitted resolves to the mock of the operator that was there, and has its operands. A module
    for all mocks exports the names of the namespace, in order. It defines each of them, whatever
    the compiler and the module that the substrate is taken from, if the names of the natives are on
    one line; if that module's name is, too, it defines them in order, and only the marker after
    them. -/
theorem Namespace.resolves_emitted_calls {natives : String → Option Native}
    {entries : List (Entry Value)} {table : Table} {catalog : Catalog}
    (htable : Table.construct (fun s => (natives s).isSome) entries = .ok table)
    (hcatalog : Catalog.ofTable table = .ok catalog) :
    ∃ ns, Namespace.build catalog Category.all natives = .ok ns ∧
      ns.mocks.map (fun m => (m.1, m.2.spec)) =
        table.specs.map (fun spec => (spec.replacement, spec)) ∧
      ns.names.Nodup ∧
      (∀ t r stats, catalog.instrument t = .ok (r, stats) →
        ∀ n ∈ t.preorder, ∀ rule, catalog.Replaces rule n →
          catalog.Emits ns rule n r ∧ rule.name ∈ ns.names) ∧
      ∀ config generated compile g, config.exportNames = [] →
        Generated.render ns config generated none compile = .ok g →
          g.exports = ns.names ∧ ((∀ name, (natives name).isSome = true → OneLine name) →
            (∀ name ∈ ns.names, name ∈ Generated.definedNames g.code) ∧
            (OneLine config.substrateName → OneLine generated →
              Generated.definedNames g.code = ns.names ++ [markerName])) := by
  have hvalid := Table.valid_of_construct htable
  have hbuild := build_eq hvalid (Catalog.rules_of_ofSpecs hcatalog)
  have hnames : (ofTable table catalog natives).names.Nodup := hvalid.nodup_keys_mocks
  refine ⟨_, hbuild, hvalid.map_mocks, hnames, ?_, ?_⟩
  · intro t r stats h n hn rule hreplaces
    have hemits := Catalog.emits_of_instrument hvalid hcatalog h hn hreplaces
    obtain ⟨mock, hmock, -⟩ := hemits.resolves
    exact ⟨hemits, List.mem_map_of_mem (Members.mem_of_get? hmock)⟩
  · intro config generated compile g hconfig h
    have hexports := Generated.exports_eq_names hnames hconfig h
    refine ⟨hexports, fun hnatives => ?_⟩
    have hdefinable := Generated.definable_ofTable hvalid hnatives catalog
    refine ⟨fun name hname => ?_, fun hmodule hgenerated => ?_⟩
    · exact Generated.mem_definedNames hdefinable h (hexports ▸ hname)
    · rw [Generated.definedNames_code hdefinable hmodule hgenerated h, hexports]

/-- The tree of `-x + y` for a table with both operators: two calls, and the outer one is that of
    the sum with the inner one and `y` as its operands. -/
theorem Namespace.resolves_emitted_calls_sum :
    ∃ table catalog ns r stats,
      Table.ofEntries [⟨"-", .category .unary, "__negate__", "js_decrement"⟩,
        ⟨"+", .category .binary, "__plus__", "js_add"⟩] = .ok table ∧
      Catalog.ofTable table = .ok catalog ∧ Namespace.build catalog = .ok ns ∧
      catalog.instrument (.binary .binary (.text "+")
        (.unary .unary (.text "-") (.named "x") (.data (.boolean true)) []) (.named "y") []) =
        .ok (r, stats) ∧
      stats.replaced = ["__negate__", "__plus__"] ∧
      .replacement "__plus__" [.replacement "__negate__" [.named "x"] [], .named "y"] [] ∈
        r.preorder ∧
      "__plus__" ∈ ns.names := by
  have htable : Table.ofEntries [⟨"-", .category .unary, "__negate__", "js_decrement"⟩,
      ⟨"+", .category .binary, "__plus__", "js_add"⟩] =
      .ok ⟨[⟨"-", .unary, "__negate__", "js_decrement"⟩, ⟨"+", .binary, "__plus__", "js_add"⟩]⟩ :=
    rfl
  obtain ⟨catalog, hcatalog, r, stats, hrun, hstats, hreplaces, himage⟩ :
      ∃ catalog, Catalog.ofTable ⟨[⟨"-", .unary, "__negate__", "js_decrement"⟩,
        ⟨"+", .binary, "__plus__", "js_add"⟩]⟩ = .ok catalog ∧ ∃ r stats,
        catalog.instrument (.binary .binary (.text "+")
          (.unary .unary (.text "-") (.named "x") (.data (.boolean true)) []) (.named "y") []) =
          .ok (r, stats) ∧
        stats.replaced = ["__negate__", "__plus__"] ∧
        catalog.Replaces ⟨⟨"+", .binary, "__plus__", "js_add"⟩⟩ (.binary .binary (.text "+")
          (.unary .unary (.text "-") (.named "x") (.data (.boolean true)) []) (.named "y") []) ∧
        (Node.binary .binary (.text "+")
          (.unary .unary (.text "-") (.named "x") (.data (.boolean true)) []) (.named "y") []).image
          catalog.replace =
          .replacement "__plus__" [.replacement "__negate__" [.named "x"] [], .named "y"] [] :=
    ⟨_, rfl, _, _, rfl, rfl, rfl, rfl⟩
  have hbuilt := (Table.ofEntries_eq_construct _).symm.trans htable
  obtain ⟨ns, hns, -, -, hcalls, -⟩ := resolves_emitted_calls hbuilt hcatalog
  obtain ⟨hemits, hname⟩ := hcalls _ r stats hrun _ (Node.mem_preorder_self _) _ hreplaces
  exact ⟨_, catalog, ns, r, stats, htable, hcatalog, hns, hrun, hstats, himage ▸ hemits.mem, hname⟩

end TaintWeave
