import TaintWeave.Instrumentation
import TaintWeave.Proofs.Catalog.Coherence
import TaintWeave.Proofs.Node.Children

/-!
# The pass as an image

The pass over a tree threads counts through a traversal that may fail. Apart from that it is plain:
the instrumented tree is the image of the tree under the replacement of single nodes, and the
counts are those of its nodes, looked up as they stand in the tree before the pass. For what a node
is looked up by does not depend on what becomes of its children (`find_mapChildren_image`).

* `Catalog.traverses_instrumentNode`: the pass visits the nodes in postorder and gives the image.
* `Catalog.instrument_eq_ok_iff`: when the pass gives a result, and which.
-/

namespace TaintWeave

/-! ## What a node is looked up by -/

/-- The name of an identifier. -/
def Node.identifierName? : Node → Option Slot
  | .identifier name _ => some name
  | _ => none

/-- The name of a call is that of the identifier called. -/
theorem Node.calleeName?_call (callee : Node) (arguments : Slot) (extra : Members Json) :
    (Node.call callee arguments extra).calleeName? = callee.identifierName? := by
  cases callee <;> rfl

/-- Children that are identifiers with the same names leave a node its symbol. -/
theorem Node.symbol?_mapChildren {f : Node → Node} {n : Node}
    (h : ∀ c ∈ n.children, (f c).identifierName? = c.identifierName?) :
    (n.mapChildren f).symbol? = n.symbol? := by
  cases n with
  | call callee arguments extra =>
    have hcallee := h callee List.mem_cons_self
    simp only [mapChildren, symbol?, calleeName?_call, hcallee]
  | identifier _ _ | literal _ _ _ | unary _ _ _ _ _ | binary _ _ _ _ _ | other _ _ _ => rfl

/-- A rule makes no identifier, and keeps the name of one. -/
theorem Rule.identifierName?_transform (rule : Rule) (n : Node) :
    (rule.transform n).identifierName? = n.identifierName? := by
  cases n with
  | call callee arguments extra => cases callee <;> rfl
  | identifier _ _ | literal _ _ _ | unary _ _ _ _ _ | binary _ _ _ _ _ | other _ _ _ => rfl

namespace Catalog

/-- Nodes of one type that stand for the same are looked up alike. -/
theorem find_congr {catalog : Catalog} {n m : Node} (htype : n.nodeType = m.nodeType)
    (hsymbol : n.symbol? = m.symbol?) : catalog.find n = catalog.find m := by
  have haccepts : ∀ rule : Rule, rule.accepts n = rule.accepts m := by
    intro rule
    rw [Rule.accepts, Rule.accepts, htype, hsymbol]
  simp only [find, htype, hsymbol, haccepts]

variable (catalog : Catalog)

/-- What becomes of a node whose children are instrumented. -/
def replace (n : Node) : Node :=
  match catalog.find n with
  | .ok (some rule) => rule.transform n
  | _ => n

/-- The name by which a node is replaced, if it is. -/
def replacementName? (n : Node) : Option String :=
  match catalog.find n with
  | .ok (some rule) => some rule.name
  | _ => none

/-- The counts after one more node. -/
def count (stats : Stats) (n : Node) : Except Fault Stats := do
  match ← catalog.find n with
  | none => return { stats with visited := stats.visited + 1 }
  | some rule =>
    return { visited := stats.visited + 1, replaced := stats.replaced ++ [rule.name] }

variable {catalog}

/-- Instrumentation makes no identifier, and keeps the name of one. -/
theorem identifierName?_image (n : Node) :
    (n.image catalog.replace).identifierName? = n.identifierName? := by
  have hreplace : ∀ m : Node, (catalog.replace m).identifierName? = m.identifierName? := by
    intro m
    rw [replace]
    split
    · exact Rule.identifierName?_transform _ m
    · rfl
  -- The children of an identifier are none, so it has been kept below as well.
  rw [Node.image_eq, hreplace]
  cases n <;> rfl

/-- A node is looked up alike before and after its children are instrumented, with any catalog. -/
theorem find_mapChildren_image {other : Catalog} (n : Node) :
    other.find (n.mapChildren (Node.image catalog.replace)) = other.find n :=
  find_congr (n.nodeType_mapChildren _)
    (Node.symbol?_mapChildren fun c _ => identifierName?_image c)

/-- A rule accepts a node with instrumented children if it accepts the node. -/
theorem accepts_mapChildren_image (catalog : Catalog) (rule : Rule) (n : Node) :
    rule.accepts (n.mapChildren (Node.image catalog.replace)) = rule.accepts n := by
  rw [Rule.accepts, Rule.accepts, Node.nodeType_mapChildren,
    Node.symbol?_mapChildren fun c _ => identifierName?_image c]

/-- A node that a rule accepts becomes what the rule makes of it, with its children
    instrumented. -/
theorem image_of_accepts (hc : catalog.Coherent) {rule : Rule} {n : Node}
    (hrule : rule ∈ catalog.rules) (h : rule.accepts n = true) :
    n.image catalog.replace = rule.transform (n.mapChildren (Node.image catalog.replace)) := by
  rw [Node.image_eq, replace, find_mapChildren_image, (find_eq_some_iff hc).2 ⟨hrule, h⟩]

/-- A node that no rule accepts keeps all but its children, which are instrumented. -/
theorem image_of_not_accepts (hc : catalog.Coherent) {n : Node}
    (h : ¬∃ rule ∈ catalog.rules, rule.accepts n = true) :
    n.image catalog.replace = n.mapChildren (Node.image catalog.replace) := by
  rw [Node.image_eq, replace, find_mapChildren_image]
  split
  · rename_i rule hfind
    exact absurd ⟨rule, (find_eq_some_iff hc).1 hfind⟩ h
  · rfl

/-- Either a rule accepts a node, or all that becomes of it is that its children are
    instrumented. -/
theorem image_eq_transform_or (hc : catalog.Coherent) (n : Node) :
    (∃ rule ∈ catalog.rules, rule.accepts n = true ∧
      n.image catalog.replace = rule.transform (n.mapChildren (Node.image catalog.replace))) ∨
    n.image catalog.replace = n.mapChildren (Node.image catalog.replace) := by
  by_cases h : ∃ rule ∈ catalog.rules, rule.accepts n = true
  · obtain ⟨rule, hrule, haccepts⟩ := h
    exact .inl ⟨rule, hrule, haccepts, image_of_accepts hc hrule haccepts⟩
  · exact .inr (image_of_not_accepts hc h)

/-! ## The traversal -/

/-- A part of the pass goes through some nodes in order, counts them as they are looked up, and
    gives a result. -/
def Traverses {α : Type} (catalog : Catalog) (pass : Pass α) (visited : List Node) (result : α) :
    Prop :=
  ∀ stats, pass.run stats = (result, ·) <$> visited.foldlM catalog.count stats

theorem traverses_pure {α : Type} (a : α) : catalog.Traverses (pure a) [] a := fun _ => rfl

theorem Traverses.bind {α β : Type} {x : Pass α} {f : α → Pass β} {before after : List Node} {a : α}
    {b : β} (hx : catalog.Traverses x before a) (hf : catalog.Traverses (f a) after b) :
    catalog.Traverses (x >>= f) (before ++ after) b := by
  intro stats
  rw [StateT.run_bind, hx stats, List.foldlM_append]
  rcases before.foldlM catalog.count stats with fault | counted
  · rfl
  · exact hf counted

/-- A result may be put together once all nodes are visited. -/
theorem Traverses.map {α β : Type} {x : Pass α} {visited : List Node} {a : α}
    (hx : catalog.Traverses x visited a) (g : α → β) :
    catalog.Traverses (do return g (← x)) visited (g a) := by
  have hpure : catalog.Traverses (pure (g a)) [] (g a) := traverses_pure (g a)
  rw [← List.append_nil visited]
  exact hx.bind hpure

/-- A visit to a node that is looked up like `n` counts `n`. -/
theorem traverses_visit {n m : Node} (h : catalog.find m = catalog.find n) :
    catalog.Traverses (catalog.visit m) [n] (catalog.replace m) := by
  intro stats
  rw [visit, StateT.run_bind, List.foldlM_cons, count, replace, h]
  rcases catalog.find n with fault | _ | rule
  · rfl
  · rfl
  · rfl

mutual

/-- The pass visits the nodes of a tree, each after its children, and gives the image. -/
theorem traverses_instrumentNode :
    ∀ n : Node, catalog.Traverses (catalog.instrumentNode n) n.postorder (n.image catalog.replace)
  | .identifier name extra => traverses_visit rfl
  | .literal value raw extra => traverses_visit rfl
  | .unary kind operator argument leading extra => by
    rw [instrumentNode, Node.postorder, Node.image]
    -- The node is visited with its operand instrumented, and counted as it was before.
    refine (traverses_instrumentNode argument).bind (traverses_visit ?_)
    exact find_mapChildren_image (.unary kind operator argument leading extra)
  | .binary kind operator left right extra => by
    rw [instrumentNode, Node.postorder, Node.image, List.append_assoc]
    refine (traverses_instrumentNode left).bind ?_
    refine (traverses_instrumentNode right).bind (traverses_visit ?_)
    exact find_mapChildren_image (.binary kind operator left right extra)
  | .call callee arguments extra => by
    rw [instrumentNode, Node.postorder, Node.image, List.append_assoc]
    refine (traverses_instrumentNode callee).bind ?_
    refine (traverses_instrumentSlot arguments).bind (traverses_visit ?_)
    rw [Slot.image_eq]
    exact find_mapChildren_image (.call callee arguments extra)
  | .other type fields extra => by
    rw [instrumentNode, Node.postorder, Node.image]
    refine (traverses_instrumentFields fields).bind (traverses_visit ?_)
    rw [Slot.imageFields_eq]
    exact find_mapChildren_image (.other type fields extra)

/-- The pass visits the nodes of a slot and gives the slot with their images. -/
theorem traverses_instrumentSlot :
    ∀ s : Slot, catalog.Traverses (catalog.instrumentSlot s) s.postorder (s.image catalog.replace)
  | .node n => by
    rw [instrumentSlot, Slot.postorder, Slot.image]
    exact (traverses_instrumentNode n).map Slot.node
  | .list items => by
    rw [instrumentSlot, Slot.postorder, Slot.image]
    exact (traverses_instrumentSlots items).map Slot.list
  | .data j => traverses_pure _

/-- The pass visits the nodes in a list of slots and gives the list with their images. -/
theorem traverses_instrumentSlots :
    ∀ ss : List Slot, catalog.Traverses (catalog.instrumentSlots ss) (Slot.listPostorder ss)
      (Slot.imageList catalog.replace ss)
  | [] => traverses_pure _
  | s :: ss => by
    rw [instrumentSlots, Slot.listPostorder, Slot.imageList]
    exact (traverses_instrumentSlot s).bind ((traverses_instrumentSlots ss).map _)

/-- The pass visits the nodes in the slots under keys and gives the slots with their images. -/
theorem traverses_instrumentFields :
    ∀ fields : List (String × Slot), catalog.Traverses (catalog.instrumentFields fields)
      (Slot.fieldPostorder fields) (Slot.imageFields catalog.replace fields)
  | [] => traverses_pure _
  | (k, s) :: rest => by
    rw [instrumentFields, Slot.fieldPostorder, Slot.imageFields]
    exact (traverses_instrumentSlot s).bind ((traverses_instrumentFields rest).map _)

end

/-! ## The counts -/

/-- A node that can be looked up is counted, and by its name if it is replaced. -/
theorem count_of_find {stats : Stats} {n : Node} {found : Option Rule}
    (h : catalog.find n = .ok found) :
    catalog.count stats n =
      .ok ⟨stats.visited + 1, stats.replaced ++ (found.map Rule.name).toList⟩ := by
  rw [count, h]
  cases found with
  | none =>
    rw [Option.map_none, Option.toList_none, List.append_nil]
    rfl
  | some rule => rfl

/-- The name by which a node is replaced is that of its rule. -/
theorem replacementName?_of_find {n : Node} {found : Option Rule} (h : catalog.find n = .ok found) :
    catalog.replacementName? n = found.map Rule.name := by
  rw [replacementName?, h]
  cases found <;> rfl

/-- A node that a rule accepts is replaced by its name. -/
theorem replacementName?_of_accepts (hc : catalog.Coherent) {rule : Rule} {n : Node}
    (hrule : rule ∈ catalog.rules) (h : rule.accepts n = true) :
    catalog.replacementName? n = some rule.name :=
  replacementName?_of_find ((find_eq_some_iff hc).2 ⟨hrule, h⟩)

/-- A node that no rule accepts is not replaced. -/
theorem replacementName?_of_not_accepts (hc : catalog.Coherent) {n : Node}
    (h : ¬∃ rule ∈ catalog.rules, rule.accepts n = true) : catalog.replacementName? n = none := by
  rw [replacementName?]
  split
  · rename_i rule hfind
    exact absurd ⟨rule, (find_eq_some_iff hc).1 hfind⟩ h
  · rfl

/-- Nodes are counted if all of them can be looked up: each once, and by its name if it is
    replaced. -/
theorem foldlM_count_eq_ok_iff {nodes : List Node} {stats stats' : Stats} :
    nodes.foldlM catalog.count stats = .ok stats' ↔
      (∀ n ∈ nodes, ∃ found, catalog.find n = .ok found) ∧
        stats' = ⟨stats.visited + nodes.length,
          stats.replaced ++ nodes.filterMap catalog.replacementName?⟩ := by
  induction nodes generalizing stats with
  | nil => simp [pure, Except.pure, eq_comm]
  | cons n rest ih =>
    rw [List.foldlM_cons]
    cases hfind : catalog.find n with
    | error fault =>
      rw [count, hfind]
      refine ⟨nofun, fun ⟨hall, _⟩ => ?_⟩
      obtain ⟨found, hfound⟩ := hall n List.mem_cons_self
      rw [hfind] at hfound
      cases hfound
    -- The first node adds one to the count and its name, if it is replaced, before the others.
    | ok found =>
      have hall : (∀ m ∈ n :: rest, ∃ found, catalog.find m = .ok found) ↔
          ∀ m ∈ rest, ∃ found, catalog.find m = .ok found := by simp [hfind]
      have hnames : (n :: rest).filterMap catalog.replacementName? =
          (found.map Rule.name).toList ++ rest.filterMap catalog.replacementName? := by
        rw [List.filterMap_cons, replacementName?_of_find hfind]
        cases found <;> rfl
      rw [count_of_find hfind, hall, hnames, ← List.append_assoc, List.length_cons,
        Nat.add_comm rest.length, ← Nat.add_assoc]
      exact ih

/-- The pass gives a result if all nodes of the tree can be looked up: the image of the tree and
    the counts of its nodes. -/
theorem instrument_eq_ok_iff {t r : Node} {stats : Stats} :
    catalog.instrument t = .ok (r, stats) ↔
      (∀ n ∈ t.preorder, ∃ found, catalog.find n = .ok found) ∧ r = t.image catalog.replace ∧
        stats = ⟨t.preorder.length, t.postorder.filterMap catalog.replacementName?⟩ := by
  rw [instrument, traverses_instrumentNode t {}]
  constructor
  · intro h
    cases hcount : t.postorder.foldlM catalog.count {} with
    | error fault =>
      rw [hcount] at h
      cases h
    | ok counted =>
      rw [hcount] at h
      cases h
      obtain ⟨hfind, hcounted⟩ := foldlM_count_eq_ok_iff.1 hcount
      refine ⟨fun n hn => hfind n (Node.mem_postorder_iff.2 hn), rfl, ?_⟩
      rw [hcounted, t.postorder_perm_preorder.length_eq, Nat.zero_add, List.nil_append]
  · rintro ⟨hfind, rfl, rfl⟩
    have hcount : t.postorder.foldlM catalog.count {} =
        .ok ⟨0 + t.postorder.length, [] ++ t.postorder.filterMap catalog.replacementName?⟩ :=
      foldlM_count_eq_ok_iff.2 ⟨fun n hn => hfind n (Node.mem_postorder_iff.1 hn), rfl⟩
    rw [hcount, t.postorder_perm_preorder.length_eq, Nat.zero_add, List.nil_append]
    rfl

end Catalog

end TaintWeave
