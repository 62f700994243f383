import Mathlib.Algebra.BigOperators.Group.List.Lemmas
import Mathlib.Algebra.GroupWithZero.Nat
import TaintWeave.Proofs.Instrumentation.Image

/-!
# What a pass counts

The pass counts nodes as they stand when it comes to them, with their children instrumented already.
Still its counts are those of the tree before the pass: a node is looked up alike in both
(`Catalog.find_mapChildren_image`).

The instrumented tree is larger by the names that are called for operators: each is a node of its
own, while the name of a function only makes place for another one.

* `Rule.length_preorder_transform`: by how much a rule enlarges a tree.
* `Catalog.length_preorder_image`: by how much the pass does.
* `Catalog.instrument_counts_exact`: all counts of the pass.
-/

namespace TaintWeave

/-! ## The table of counts -/

/-- A list without repetitions has none. -/
theorem nodup_eraseDups {α : Type} [BEq α] [LawfulBEq α] : ∀ l : List α, l.eraseDups.Nodup
  | [] => List.nodup_nil
  | a :: rest => by
    rw [List.eraseDups_cons, List.nodup_cons]
    refine ⟨fun hmem => ?_, nodup_eraseDups (rest.filter fun b => !b == a)⟩
    rw [List.mem_eraseDups, List.mem_filter] at hmem
    simp at hmem
termination_by l => l.length
decreasing_by exact Nat.lt_succ_of_le (List.length_filter_le _ _)

namespace Stats

/-- The table has a row for every name of a replacement, with the number of these. -/
theorem mem_counts {stats : Stats} {name : String} {k : Nat} :
    (name, k) ∈ stats.counts ↔ k = stats.replaced.count name ∧ 0 < k := by
  simp only [counts, List.mem_map, List.mem_mergeSort, List.mem_eraseDups, Prod.mk.injEq]
  constructor
  · rintro ⟨_, hmem, rfl, rfl⟩
    exact ⟨rfl, List.count_pos_iff.2 hmem⟩
  · rintro ⟨rfl, hpos⟩
    exact ⟨name, List.count_pos_iff.1 hpos, rfl, rfl⟩

/-- The rows of the table add up to the number of replacements. -/
theorem sum_counts (stats : Stats) : (stats.counts.map Prod.snd).sum = stats.total := by
  have hperm : stats.replaced.eraseDups.Perm stats.replaced.dedup :=
    (List.perm_ext_iff_of_nodup (nodup_eraseDups _) (List.nodup_dedup _)).2 fun name => by
      rw [List.mem_eraseDups, List.mem_dedup]
  have hrows : stats.counts.map Prod.snd = (stats.replaced.eraseDups.mergeSort (· ≤ ·)).map
      fun name => stats.replaced.count name := by
    rw [counts, List.map_map]
    rfl
  rw [hrows, total, ← List.sum_map_count_dedup_eq_length]
  exact (((List.mergeSort_perm _ _).trans hperm).map _).sum_eq

end Stats

/-! ## The size of a tree -/

namespace Node

/-- A tree has its root and the nodes of the subtrees. -/
theorem length_preorder (n : Node) :
    n.preorder.length = (n.children.map fun c => c.preorder.length).sum + 1 := by
  rw [preorder_eq, List.length_cons, List.length_flatMap]

/-- Nodes of a kind are counted at the root and in the subtrees. -/
theorem countP_preorder (p : Node → Bool) (n : Node) :
    n.preorder.countP p =
      (n.children.map fun c => c.preorder.countP p).sum + if p n then 1 else 0 := by
  rw [preorder_eq, List.countP_cons, List.countP_flatMap]
  rfl

end Node

/-- A rule adds a node to a tree, the name that is called; only a function has a name already. -/
theorem Rule.length_preorder_transform {rule : Rule} {n : Node} (h : rule.accepts n = true) :
    (rule.transform n).preorder.length =
      n.preorder.length + if rule.category != .function then 1 else 0 := by
  cases Accepts.of_accepts h with
  | unary hcategory =>
    simp [transform, Node.replacement, Node.named, Node.preorder, Slot.preorder,
      Slot.listPreorder, hcategory]
  | binary hcategory =>
    have hoperator : rule.category ≠ .function := by
      rcases hcategory with hcategory | ⟨hcategory, -⟩ <;> simp [hcategory]
    simp [transform, Node.replacement, Node.named, Node.preorder, Slot.preorder,
      Slot.listPreorder, hoperator]
  | call hcategory => simp [transform, Node.preorder, hcategory]

namespace Catalog

/-- Whether a rule for an operator applies to a node, and not one for a function. -/
def replacesOperator (catalog : Catalog) (n : Node) : Bool :=
  (catalog.matching n).any fun rule => rule.category != .function

variable {catalog : Catalog}

/-- A rule with a property applies to a node exactly if the one that applies has the property. -/
theorem any_matching_of_accepts (hc : catalog.Coherent) {rule : Rule} {n : Node}
    (hrule : rule ∈ catalog.rules) (h : rule.accepts n = true) (p : Rule → Bool) :
    (catalog.matching n).any p = p rule := by
  rw [Bool.eq_iff_iff, List.any_eq_true]
  constructor
  · rintro ⟨other, hother, hp⟩
    obtain ⟨hmem, haccepts⟩ := List.mem_filter.1 hother
    rwa [hc.eq_of_accepts hrule h hmem haccepts] at hp
  · intro hp
    exact ⟨rule, List.mem_filter.2 ⟨hrule, h⟩, hp⟩

/-- The name by which a node is replaced has a property if the rule that applies to it has one. -/
theorem any_replacementName? (hc : catalog.Coherent) {n : Node} {p : String → Bool}
    {q : Rule → Bool} (hpq : ∀ rule ∈ catalog.rules, p rule.name = q rule) :
    ((catalog.replacementName? n).map p).getD false = (catalog.matching n).any q := by
  by_cases h : ∃ rule ∈ catalog.rules, rule.accepts n = true
  · obtain ⟨rule, hrule, haccepts⟩ := h
    rw [replacementName?_of_accepts hc hrule haccepts, any_matching_of_accepts hc hrule haccepts,
      Option.map_some, Option.getD_some, hpq rule hrule]
  · have hnone : catalog.matching n = [] := not_not.1 fun hne => h (matching_ne_nil_iff.1 hne)
    rw [replacementName?_of_not_accepts hc h, hnone]
    rfl

/-- The replacements with a property are the nodes to which a rule with the property applies. -/
theorem countP_replaced (hc : catalog.Coherent) (t : Node) {p : String → Bool} {q : Rule → Bool}
    (hpq : ∀ rule ∈ catalog.rules, p rule.name = q rule) :
    (t.postorder.filterMap catalog.replacementName?).countP p =
      t.preorder.countP fun n => (catalog.matching n).any q := by
  rw [List.countP_filterMap, t.postorder_perm_preorder.countP_eq]
  refine List.countP_congr fun n _ => ?_
  rw [any_replacementName? hc hpq]

/-- The instrumented tree has the nodes of the tree, and one more for every operator replaced. -/
theorem length_preorder_image (hc : catalog.Coherent) (t : Node) :
    (t.image catalog.replace).preorder.length =
      t.preorder.length + t.preorder.countP catalog.replacesOperator := by
  induction t using Node.induction_on_children with
  | step t ih =>
    have hchildren : (t.mapChildren (Node.image catalog.replace)).preorder.length =
        t.preorder.length + (t.children.map fun c => c.preorder.countP catalog.replacesOperator).sum
        := by
      rw [Node.length_preorder, Node.length_preorder, Node.children_mapChildren, List.map_map,
        Nat.add_right_comm, ← List.sum_map_add]
      exact congrArg (·.sum + 1) (List.map_congr_left ih)
    rw [Node.countP_preorder, ← Nat.add_assoc, ← hchildren]
    by_cases h : ∃ rule ∈ catalog.rules, rule.accepts t = true
    · obtain ⟨rule, hrule, haccepts⟩ := h
      have haccepts' := accepts_mapChildren_image catalog rule t ▸ haccepts
      rw [image_of_accepts hc hrule haccepts, Rule.length_preorder_transform haccepts',
        replacesOperator, any_matching_of_accepts hc hrule haccepts]
    · have hnone : catalog.matching t = [] := not_not.1 fun hne => h (matching_ne_nil_iff.1 hne)
      rw [image_of_not_accepts hc h, replacesOperator, hnone]
      rfl

/-- The counts of the pass are exact. It visits every node of the tree once; a name is counted for
    every node of the tree before the pass to which a rule with that name applies, and all names
    together make the total. The instrumented tree has a node more than the tree for every operator
    that is replaced; where names are not shared between rules, these are the replacements under the
    names of operators. -/
theorem instrument_counts_exact {specs : List Spec} {t r : Node} {stats : Stats}
    (hcatalog : ofSpecs specs = .ok catalog) (hpass : catalog.instrument t = .ok (r, stats)) :
    stats.visited = t.preorder.length ∧
      (∀ name, stats.replaced.count name =
        t.preorder.countP fun n => (catalog.matching n).any fun rule => rule.name == name) ∧
      (∀ name k, (name, k) ∈ stats.counts ↔ k = stats.replaced.count name ∧ 0 < k) ∧
      stats.total = (stats.counts.map Prod.snd).sum ∧
      r.preorder.length = stats.visited + t.preorder.countP catalog.replacesOperator ∧
      ((catalog.rules.map Rule.name).Nodup → t.preorder.countP catalog.replacesOperator =
        stats.replaced.countP fun name =>
          catalog.rules.any fun rule => rule.name == name && rule.category != .function) := by
  have hc := (valid_of_ofSpecs hcatalog).coherent
  obtain ⟨-, rfl, rfl⟩ := instrument_eq_ok_iff.1 hpass
  refine ⟨rfl, fun name => ?_, fun name k => Stats.mem_counts, (Stats.sum_counts _).symm,
    length_preorder_image hc t, fun hnames => ?_⟩
  · exact countP_replaced hc t fun rule _ => rfl
  · refine (countP_replaced hc t fun rule hrule => ?_).symm
    -- A rule with the same name is the same rule.
    rw [Bool.eq_iff_iff, List.any_eq_true]
    constructor
    · rintro ⟨other, hother, h⟩
      obtain ⟨hname, hcategory⟩ := Bool.and_eq_true_iff.1 h
      rwa [List.inj_on_of_nodup_map hnames hother hrule (beq_iff_eq.1 hname)] at hcategory
    · intro hcategory
      exact ⟨rule, hrule, Bool.and_eq_true_iff.2 ⟨beq_self_eq_true _, hcategory⟩⟩

/-- In the call `eval(!x)` both the call and the operator are replaced, and only the operator adds
    a node to the four that there are. -/
theorem instrument_counts_exact_eval_not :
    ∃ catalog r stats,
      ofSpecs [⟨"!", .unary, "not", "js_logical_not"⟩, ⟨"eval", .function, "run", "js_eval"⟩] =
        .ok catalog ∧
      catalog.instrument (.call (.named "eval")
        (.list [.node (.unary .unary (.text "!") (.named "x") (.data (.boolean true)) [])]) []) =
        .ok (r, stats) ∧
      stats.visited = 4 ∧ ("not", 1) ∈ stats.counts ∧ ("run", 1) ∈ stats.counts ∧
      r.preorder.length = 5 := by
  let not : Spec := ⟨"!", .unary, "not", "js_logical_not"⟩
  let eval : Spec := ⟨"eval", .function, "run", "js_eval"⟩
  let catalog : Catalog := ⟨[⟨not⟩, ⟨eval⟩],
    [((.unary, "!"), ⟨not⟩), ((.update, "!"), ⟨not⟩), ((.call, "eval"), ⟨eval⟩)]⟩
  have hcatalog : ofSpecs [not, eval] = .ok catalog := rfl
  obtain ⟨r, hpass⟩ : ∃ r, catalog.instrument (.call (.named "eval")
      (.list [.node (.unary .unary (.text "!") (.named "x") (.data (.boolean true)) [])]) []) =
      .ok (r, ⟨4, ["not", "run"]⟩) := ⟨_, rfl⟩
  obtain ⟨-, -, hcounts, -, hsize, hnames⟩ := instrument_counts_exact hcatalog hpass
  refine ⟨catalog, r, _, hcatalog, hpass, rfl, (hcounts _ _).2 ⟨rfl, Nat.one_pos⟩,
    (hcounts _ _).2 ⟨rfl, Nat.one_pos⟩, ?_⟩
  rw [hsize, hnames (by decide)]
  decide

end Catalog

end TaintWeave
