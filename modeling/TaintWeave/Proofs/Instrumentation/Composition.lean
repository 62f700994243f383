import TaintWeave.Proofs.Catalog.Construction
import TaintWeave.Proofs.Instrumentation.Stability
import TaintWeave.Proofs.Operator.Distinct

/-!
# Instrumentation in parts

A tree may be instrumented for a part of the operators first and for the others later. The calls
that the first pass leaves behind are new to the second, which might take one for a call of a
function of its own; but the names of all operators are checked against the functions of all, so it
does not. Both passes together come to what one pass for all operators comes to, whichever is first.

* `Catalog.Splits`: a catalog whose rules are those of two others.
* `Catalog.Splits.image_image`: both passes make the tree that one pass makes.
* `Catalog.Splits.replaced_image`: the second pass replaces what it would replace on its own.
* `Catalog.instrument_parts`: both together, for every division of the operators of a table.
-/

namespace TaintWeave

/-! ## What a rule makes of instrumented children -/

/-- Children may be replaced before a rule is applied or after it, if identifiers stay. -/
theorem Rule.mapChildren_transform {rule : Rule} {n : Node} {f : Node → Node}
    (h : rule.accepts n = true)
    (hf : ∀ name extra, f (.identifier name extra) = .identifier name extra) :
    (rule.transform n).mapChildren f = rule.transform (n.mapChildren f) := by
  cases Accepts.of_accepts h with
  | unary _ => simp [transform, Node.replacement, Node.named, Node.mapChildren, Slot.map,
      Slot.mapList, hf]
  | binary _ => simp [transform, Node.replacement, Node.named, Node.mapChildren, Slot.map,
      Slot.mapList, hf]
  | call _ => simp [transform, Node.mapChildren, hf]

/-- What is gathered from the children of a node is gathered from those of what a rule makes of it,
    if there is nothing to gather from identifiers. -/
theorem Rule.flatMap_children_transform {α : Type} {rule : Rule} {n : Node} {f : Node → List α}
    (h : rule.accepts n = true) (hf : ∀ name extra, f (.identifier name extra) = []) :
    (rule.transform n).children.flatMap f = n.children.flatMap f := by
  cases Accepts.of_accepts h with
  | unary _ => simp [transform, Node.replacement, Node.named, Node.children, Slot.nodes,
      Slot.listNodes, hf]
  | binary _ => simp [transform, Node.replacement, Node.named, Node.children, Slot.nodes,
      Slot.listNodes, hf]
  | call _ => simp [transform, Node.children, hf]

/-- What is found by one search or by another, but never by both, is found by both together. -/
theorem filterMap_append_perm {α β : Type} {f g h : α → Option β}
    (hfg : ∀ a, (f a).toList ++ (g a).toList = (h a).toList) (l : List α) :
    (l.filterMap f ++ l.filterMap g).Perm (l.filterMap h) := by
  have hfilter : ∀ {k : α → Option β} {a : α} {rest : List α},
      (a :: rest).filterMap k = (k a).toList ++ rest.filterMap k := by
    intro k a rest
    cases hk : k a with
    | none => rw [List.filterMap_cons_none hk, Option.toList_none, List.nil_append]
    | some b => rw [List.filterMap_cons_some hk, Option.toList_some, List.singleton_append]
  induction l with
  | nil => exact .refl _
  | cons a rest ih =>
    rw [hfilter, hfilter, hfilter, ← hfg a, List.append_assoc, List.append_assoc]
    exact ((List.perm_append_comm_assoc _ _ _).trans (ih.append_left _)).append_left _

namespace Catalog

/-- A catalog whose rules are those of two others, which have none in common. -/
structure Splits (catalog first second : Catalog) : Prop where
  valid : catalog.Valid
  coherent_first : first.Coherent
  coherent_second : second.Coherent
  mem_iff : ∀ rule, rule ∈ catalog.rules ↔ rule ∈ first.rules ∨ rule ∈ second.rules
  disjoint : ∀ rule ∈ first.rules, rule ∉ second.rules

namespace Splits

variable {catalog first second : Catalog}

theorem symm (h : catalog.Splits first second) : catalog.Splits second first where
  valid := h.valid
  coherent_first := h.coherent_second
  coherent_second := h.coherent_first
  mem_iff rule := (h.mem_iff rule).trans or_comm
  disjoint rule hsecond hfirst := h.disjoint rule hfirst hsecond

/-- No rule of the second part accepts a node that one of the first accepts. -/
theorem not_accepts (h : catalog.Splits first second) {rule : Rule} {n : Node}
    (hrule : rule ∈ first.rules) (haccepts : rule.accepts n = true) :
    ¬∃ other ∈ second.rules, other.accepts n = true := by
  rintro ⟨other, hother, haccepts'⟩
  obtain rfl := h.valid.coherent.eq_of_accepts ((h.mem_iff rule).2 (.inl hrule)) haccepts
    ((h.mem_iff other).2 (.inr hother)) haccepts'
  exact h.disjoint other hrule hother

/-- No rule of the second part accepts what one of the first makes of a node. -/
theorem not_accepts_transform (h : catalog.Splits first second) {rule : Rule} {n : Node}
    (hrule : rule ∈ first.rules) (haccepts : rule.accepts n = true) :
    ¬∃ other ∈ second.rules, other.accepts (rule.transform n) = true := by
  rintro ⟨other, hother, haccepts'⟩
  have hfind := find_transform h.valid ((h.mem_iff rule).2 (.inl hrule)) haccepts
  rw [(find_eq_some_iff h.valid.coherent).2 ⟨(h.mem_iff other).2 (.inr hother), haccepts'⟩] at hfind
  cases hfind

/-- No rule accepts a node that none of the two parts has a rule for. -/
theorem not_accepts_of_parts (h : catalog.Splits first second) {n : Node}
    (hfirst : ¬∃ rule ∈ first.rules, rule.accepts n = true)
    (hsecond : ¬∃ rule ∈ second.rules, rule.accepts n = true) :
    ¬∃ rule ∈ catalog.rules, rule.accepts n = true := by
  rintro ⟨rule, hrule, haccepts⟩
  rcases (h.mem_iff rule).1 hrule with hrule | hrule
  · exact hfirst ⟨rule, hrule, haccepts⟩
  · exact hsecond ⟨rule, hrule, haccepts⟩

/-- A pass for each of two parts makes the tree that a pass for both makes. -/
theorem image_image (h : catalog.Splits first second) (n : Node) :
    (n.image first.replace).image second.replace = n.image catalog.replace := by
  induction n using Node.induction_on_children with
  | step n ih =>
    have hchildren : (n.mapChildren (Node.image first.replace)).mapChildren
        (Node.image second.replace) = n.mapChildren (Node.image catalog.replace) := by
      rw [Node.mapChildren_mapChildren]
      exact Node.mapChildren_congr ih
    by_cases hfirst : ∃ rule ∈ first.rules, rule.accepts n = true
    · -- The first pass replaces the node, and the second only goes on to the operands.
      obtain ⟨rule, hrule, haccepts⟩ := hfirst
      have haccepts' := accepts_mapChildren_image first rule n ▸ haccepts
      rw [image_of_accepts h.coherent_first hrule haccepts,
        image_of_not_accepts h.coherent_second (h.not_accepts_transform hrule haccepts'),
        Rule.mapChildren_transform haccepts' image_identifier, hchildren,
        image_of_accepts h.valid.coherent ((h.mem_iff rule).2 (.inl hrule)) haccepts]
    · rw [image_of_not_accepts h.coherent_first hfirst]
      by_cases hsecond : ∃ rule ∈ second.rules, rule.accepts n = true
      · obtain ⟨rule, hrule, haccepts⟩ := hsecond
        rw [image_of_accepts h.coherent_second hrule
            (accepts_mapChildren_image _ rule n ▸ haccepts),
          hchildren, image_of_accepts h.valid.coherent ((h.mem_iff rule).2 (.inr hrule)) haccepts]
      · simp only [accepts_mapChildren_image, not_false_eq_true, hsecond,
          image_of_not_accepts h.coherent_second, hchildren]
        rw [image_of_not_accepts h.valid.coherent (h.not_accepts_of_parts hfirst hsecond)]

/-- The second pass replaces what it would replace without the first. -/
theorem replaced_image (h : catalog.Splits first second) (n : Node) :
    (n.image first.replace).postorder.filterMap second.replacementName? =
      n.postorder.filterMap second.replacementName? := by
  -- The names below a node come first, and an identifier has none.
  have hnode : ∀ m : Node, m.postorder.filterMap second.replacementName? =
      m.children.flatMap (fun c => c.postorder.filterMap second.replacementName?) ++
        (second.replacementName? m).toList := by
    intro m
    rw [Node.postorder_eq, List.filterMap_append, List.filterMap_flatMap]
    cases hname : second.replacementName? m <;> simp [hname]
  have hidentifier : ∀ name extra, (Node.identifier name extra).postorder.filterMap
      second.replacementName? = [] := by
    intro name extra
    rfl
  induction n using Node.induction_on_children with
  | step n ih =>
    have hchildren : (n.mapChildren (Node.image first.replace)).children.flatMap
        (fun c => c.postorder.filterMap second.replacementName?) =
        n.children.flatMap fun c => c.postorder.filterMap second.replacementName? := by
      rw [Node.children_mapChildren, List.flatMap_map]
      exact List.flatMap_congr ih
    rw [hnode, hnode n]
    by_cases hfirst : ∃ rule ∈ first.rules, rule.accepts n = true
    · obtain ⟨rule, hrule, haccepts⟩ := hfirst
      have haccepts' := accepts_mapChildren_image first rule n ▸ haccepts
      rw [image_of_accepts h.coherent_first hrule haccepts,
        Rule.flatMap_children_transform haccepts' hidentifier, hchildren,
        replacementName?_of_not_accepts h.coherent_second (h.not_accepts hrule haccepts),
        replacementName?_of_not_accepts h.coherent_second (h.not_accepts_transform hrule haccepts')]
    · rw [image_of_not_accepts h.coherent_first hfirst, hchildren, replacementName?,
        find_mapChildren_image, ← replacementName?]

/-- A node is replaced in one of the two passes, or in none of them. -/
theorem toList_replacementName? (h : catalog.Splits first second) (n : Node) :
    (first.replacementName? n).toList ++ (second.replacementName? n).toList =
      (catalog.replacementName? n).toList := by
  by_cases hfirst : ∃ rule ∈ first.rules, rule.accepts n = true
  · obtain ⟨rule, hrule, haccepts⟩ := hfirst
    rw [replacementName?_of_accepts h.coherent_first hrule haccepts,
      replacementName?_of_not_accepts h.coherent_second (h.not_accepts hrule haccepts),
      replacementName?_of_accepts h.valid.coherent ((h.mem_iff rule).2 (.inl hrule)) haccepts]
    rfl
  · rw [replacementName?_of_not_accepts h.coherent_first hfirst, Option.toList_none,
      List.nil_append]
    by_cases hsecond : ∃ rule ∈ second.rules, rule.accepts n = true
    · obtain ⟨rule, hrule, haccepts⟩ := hsecond
      rw [replacementName?_of_accepts h.coherent_second hrule haccepts,
        replacementName?_of_accepts h.valid.coherent ((h.mem_iff rule).2 (.inr hrule)) haccepts]
    · rw [replacementName?_of_not_accepts h.coherent_second hsecond,
        replacementName?_of_not_accepts h.valid.coherent (h.not_accepts_of_parts hfirst hsecond)]

/-- A node that the whole catalog can look up, each part can look up too, also after a pass for the
    other. -/
theorem exists_find_image (h : catalog.Splits first second) {t : Node}
    (hfind : ∀ n ∈ t.preorder, ∃ found, catalog.find n = .ok found) :
    (∀ n ∈ t.preorder, ∃ found, first.find n = .ok found) ∧
      ∀ n ∈ (t.image first.replace).preorder, ∃ found, second.find n = .ok found := by
  refine ⟨fun n hn => exists_find_iff.2 (exists_find_iff.1 (hfind n hn)), ?_⟩
  refine forall_mem_preorder_image h.coherent_first (fun n hn => ?_) (fun n _ rule _ haccepts => ?_)
    (fun _ _ => ⟨none, find_of_symbol?_eq_none rfl⟩)
    fun _ _ _ _ => ⟨none, find_of_symbol?_eq_none rfl⟩
  · rw [find_mapChildren_image]
    exact exists_find_iff.2 (exists_find_iff.1 (hfind n hn))
  · have haccepts' := accepts_mapChildren_image first rule n ▸ haccepts
    exact ⟨_, find_of_symbol?_eq_text (Rule.nodeType_transform haccepts').2⟩

end Splits

/-- Two passes, one after the other, come to a tree, and replace together what is counted. -/
def Compose (first second : Catalog) (t r : Node) (stats : Stats) : Prop :=
  ∃ between stats₁ stats₂, first.instrument t = .ok (between, stats₁) ∧
    second.instrument between = .ok (r, stats₂) ∧
    ∀ name, stats₁.replaced.count name + stats₂.replaced.count name = stats.replaced.count name

/-- The passes for two parts come to what the pass for both comes to. -/
theorem Splits.compose {catalog first second : Catalog} (h : catalog.Splits first second)
    {t r : Node} {stats : Stats} (hpass : catalog.instrument t = .ok (r, stats)) :
    Compose first second t r stats := by
  obtain ⟨hfind, rfl, rfl⟩ := instrument_eq_ok_iff.1 hpass
  obtain ⟨hfirst, hsecond⟩ := h.exists_find_image hfind
  refine ⟨_, _, _, instrument_eq_ok_iff.2 ⟨hfirst, rfl, rfl⟩,
    instrument_eq_ok_iff.2 ⟨hsecond, (h.image_image t).symm, rfl⟩, fun name => ?_⟩
  rw [h.replaced_image, ← List.count_append]
  exact (filterMap_append_perm h.toList_replacementName? t.postorder).count_eq name

/-- The catalogs of two parts of the operators of a table split its catalog. -/
theorem splits_of_perm {table : Table} {part rest : List Spec} {catalog first second : Catalog}
    (htable : (table.specs.map Entry.symbol).Nodup) (hperm : (part ++ rest).Perm table.specs)
    (hcatalog : ofTable table = .ok catalog) (hfirst : ofTable ⟨part⟩ = .ok first)
    (hsecond : ofTable ⟨rest⟩ = .ok second) : catalog.Splits first second where
  valid := valid_of_ofSpecs hcatalog
  coherent_first := (valid_of_ofSpecs hfirst).coherent
  coherent_second := (valid_of_ofSpecs hsecond).coherent
  mem_iff rule := by
    rw [rules_of_ofSpecs hcatalog, rules_of_ofSpecs hfirst, rules_of_ofSpecs hsecond,
      ← (hperm.map Rule.mk).mem_iff, List.map_append, List.mem_append]
  disjoint rule hrule hrule' := by
    have hnodup : (part ++ rest).Nodup := hperm.nodup_iff.2 (htable.of_map _)
    rw [rules_of_ofSpecs hfirst, List.mem_map] at hrule
    rw [rules_of_ofSpecs hsecond, List.mem_map] at hrule'
    obtain ⟨spec, hspec, rfl⟩ := hrule
    obtain ⟨other, hother, heq⟩ := hrule'
    cases heq
    exact (List.nodup_append.1 hnodup).2.2 _ hspec _ hother rfl

/-- Instrumentation may be divided in any way. Every division of the operators of a table, with both
    parts in any order, gives two tables with catalogs; the passes with these, one after the other,
    come to the tree of the pass with all operators, whichever is first, and their counts add up to
    its counts. With all operators in another order, the pass comes to the same. All of this is so
    whatever natives there are. -/
theorem instrument_parts {hasNative : String → Bool} {entries : List (Entry Value)}
    {table : Table} {catalog : Catalog} {t r : Node} {stats : Stats}
    (htable : Table.construct hasNative entries = .ok table)
    (hcatalog : ofTable table = .ok catalog) (hpass : catalog.instrument t = .ok (r, stats)) :
    (∀ part rest : List Spec, (part ++ rest).Perm table.specs →
      Table.construct hasNative (part.map Spec.toEntry) = .ok ⟨part⟩ ∧
      Table.construct hasNative (rest.map Spec.toEntry) = .ok ⟨rest⟩ ∧
      ∃ first second, ofTable ⟨part⟩ = .ok first ∧ ofTable ⟨rest⟩ = .ok second ∧
        Compose first second t r stats ∧ Compose second first t r stats) ∧
    ∀ specs : List Spec, specs.Perm table.specs →
      Table.construct hasNative (specs.map Spec.toEntry) = .ok ⟨specs⟩ ∧
      ∃ other, ofTable ⟨specs⟩ = .ok other ∧ other.instrument t = .ok (r, stats) := by
  have htable := Table.wellFormed_of_construct htable
  constructor
  · intro part rest hperm
    have hswap : (rest ++ part).Perm table.specs := List.perm_append_comm.trans hperm
    obtain ⟨first, hfirst⟩ := exists_ofSpecs_of_perm_append hcatalog hperm
    obtain ⟨second, hsecond⟩ := exists_ofSpecs_of_perm_append hcatalog hswap
    have hsplits := splits_of_perm htable.symbols hperm hcatalog hfirst hsecond
    exact ⟨Table.construct_of_wellFormed (htable.of_perm_append hperm),
      Table.construct_of_wellFormed (htable.of_perm_append hswap), first, second, hfirst, hsecond,
      hsplits.compose hpass, hsplits.symm.compose hpass⟩
  · intro specs hperm
    have hall : (specs ++ []).Perm table.specs := (List.append_nil specs).symm ▸ hperm
    obtain ⟨other, hother⟩ := exists_ofSpecs_of_perm_append hcatalog hall
    refine ⟨Table.construct_of_wellFormed (htable.of_perm_append hall), other, hother, ?_⟩
    -- Both catalogs have the same rules, so they find the same.
    have hrules : ∀ rule, rule ∈ other.rules ↔ rule ∈ catalog.rules := fun rule => by
      rw [rules_of_ofSpecs hother, rules_of_ofSpecs hcatalog, (hperm.map Rule.mk).mem_iff]
    have hfind : other.find = catalog.find := funext <|
      find_eq_find (valid_of_ofSpecs hother).coherent (valid_of_ofSpecs hcatalog).coherent hrules
    have hreplace : other.replace = catalog.replace := by
      funext n
      rw [replace, replace, hfind]
    have hnames : other.replacementName? = catalog.replacementName? := by
      funext n
      rw [replacementName?, replacementName?, hfind]
    rw [instrument_eq_ok_iff, hfind, hreplace, hnames]
    exact instrument_eq_ok_iff.1 hpass

/-- The call `eval(!x)`, for `eval` first and for `!` first. -/
theorem instrument_parts_eval_not :
    ∃ first second r stats,
      ofTable ⟨[⟨"eval", .function, "run", "js_eval"⟩]⟩ = .ok first ∧
      ofTable ⟨[⟨"!", .unary, "not", "js_logical_not"⟩]⟩ = .ok second ∧
      stats.replaced = ["not", "run"] ∧
      Compose first second (.call (.named "eval")
        (.list [.node (.unary .unary (.text "!") (.named "x") (.data (.boolean true)) [])]) [])
        r stats ∧
      Compose second first (.call (.named "eval")
        (.list [.node (.unary .unary (.text "!") (.named "x") (.data (.boolean true)) [])]) [])
        r stats := by
  let not : Spec := ⟨"!", .unary, "not", "js_logical_not"⟩
  let eval : Spec := ⟨"eval", .function, "run", "js_eval"⟩
  let catalog : Catalog := ⟨[⟨not⟩, ⟨eval⟩],
    [((.unary, "!"), ⟨not⟩), ((.update, "!"), ⟨not⟩), ((.call, "eval"), ⟨eval⟩)]⟩
  have htable : Table.ofEntries [not.toEntry, eval.toEntry] = .ok ⟨[not, eval]⟩ :=
    toOption_eq_some_iff.1 (by decide +kernel)
  have hbuilt := (Table.ofEntries_eq_construct _).symm.trans htable
  have hcatalog : ofTable ⟨[not, eval]⟩ = .ok catalog := rfl
  obtain ⟨r, hpass⟩ : ∃ r, catalog.instrument (.call (.named "eval")
      (.list [.node (.unary .unary (.text "!") (.named "x") (.data (.boolean true)) [])]) []) =
      .ok (r, ⟨4, ["not", "run"]⟩) := ⟨_, rfl⟩
  obtain ⟨hparts, -⟩ := instrument_parts hbuilt hcatalog hpass
  obtain ⟨-, -, first, second, hfirst, hsecond, hcompose, hcompose'⟩ :=
    hparts [eval] [not] (List.Perm.swap not eval [])
  exact ⟨first, second, r, _, hfirst, hsecond, rfl, hcompose, hcompose'⟩

end Catalog

end TaintWeave
