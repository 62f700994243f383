import Mathlib.Tactic.Choose
import TaintWeave.Proofs.Catalog.Coherence
import TaintWeave.Proofs.Instrumentation.Image

/-!
# Stability

A tree is *settled* if the catalog has no rule for any of its nodes. Instrumentation leaves settled
trees behind, and it leaves those alone: a second pass replaces nothing.

Leaving a tree alone is meant literally. The pass puts the results of the children of a node into
it, and a node all of whose children are given back is given back itself, not a copy. Values have no
identity here, so `Catalog.Returns` keeps track of it: the result of the pass for a node is `none`
where that is the node itself.

* `Catalog.settled_image`: an instrumented tree is settled.
* `Catalog.Settled.image_eq`: a settled tree is its own image.
* `Catalog.Returns.image_eq`: the pass gives a settled tree itself back, and else its image.
* `Catalog.instrument_complete_stable`: all together, for the pass.
-/

namespace TaintWeave

/-! ## What a rule makes -/

/-- A rule that accepts a node makes a call of its name. -/
theorem Rule.nodeType_transform {rule : Rule} {n : Node} (h : rule.accepts n = true) :
    (rule.transform n).nodeType = .call ∧ (rule.transform n).symbol? = some (.text rule.name) := by
  rcases Accepts.of_accepts h <;> exact ⟨rfl, rfl⟩

/-- The children of what a rule makes are those of the node, but for the name called. This has the
    extra members of the name that was called before, or none. -/
theorem Rule.mem_children_transform {rule : Rule} {n c : Node} (h : rule.accepts n = true)
    (hc : c ∈ (rule.transform n).children) :
    c ∈ n.children ∨ ∃ extra, c = .identifier (.text rule.name) extra ∧
      (extra = [] ∨ .identifier (.text rule.symbol) extra ∈ n.children) := by
  rcases Accepts.of_accepts h
  case unary | binary =>
    rcases List.mem_cons.1 hc with hc | hc
    · exact .inr ⟨_, hc, .inl rfl⟩
    · exact .inl hc
  case call =>
    rcases List.mem_cons.1 hc with hc | hc
    · exact .inr ⟨_, hc, .inr List.mem_cons_self⟩
    · exact .inl (List.mem_cons_of_mem _ hc)

/-- What holds of identifiers holds of the children of what a rule makes if it holds of those of the
    node, and the other way round. -/
theorem Rule.forall_mem_children_transform {rule : Rule} {n : Node} {P : Node → Prop}
    (h : rule.accepts n = true) (hname : ∀ name extra, P (.identifier (.text name) extra)) :
    (∀ c ∈ (rule.transform n).children, P c) ↔ ∀ c ∈ n.children, P c := by
  rcases Accepts.of_accepts h
  case unary | binary =>
    simp [transform, Node.replacement, Node.named, Node.children, Slot.nodes, Slot.listNodes, hname]
  case call => simp [transform, Node.children, hname]

namespace Catalog

/-- What holds of all names holds of the nodes of an instrumented tree if and only if it holds of
    what becomes of the nodes of the tree. -/
theorem forall_mem_preorder_image_iff {catalog : Catalog} (hc : catalog.Coherent)
    {P : Node → Prop} (hname : ∀ name extra, P (.identifier (.text name) extra)) {t : Node} :
    (∀ n ∈ (t.image catalog.replace).preorder, P n) ↔
      ∀ n ∈ t.preorder, P (n.image catalog.replace) := by
  induction t using Node.induction_on_children with
  | step t ih =>
    rw [Node.forall_mem_preorder, Node.forall_mem_preorder]
    refine and_congr_right fun _ => ?_
    have hidentifier : ∀ name extra,
        ∀ n ∈ (Node.identifier (.text name) extra).preorder, P n := fun name extra n hn => by
      rw [List.mem_singleton.1 hn]
      exact hname name extra
    -- Up to the name that is called, the children are those of the tree, instrumented.
    have hchildren : (∀ c ∈ (t.image catalog.replace).children, ∀ n ∈ c.preorder, P n) ↔
        ∀ c ∈ (t.mapChildren (Node.image catalog.replace)).children, ∀ n ∈ c.preorder, P n := by
      rcases image_eq_transform_or hc t with ⟨rule, -, haccepts, himage⟩ | himage
      · have haccepts' := accepts_mapChildren_image catalog rule t ▸ haccepts
        rw [himage]
        exact Rule.forall_mem_children_transform haccepts' hidentifier
      · rw [himage]
    rw [hchildren, Node.children_mapChildren, List.forall_mem_map]
    exact forall₂_congr ih

/-- What holds of the nodes of a tree holds of those of the instrumented tree, if it is kept by
    nodes that stay, by nodes that are replaced and by names that are called under another name,
    and holds of the names that are called for operators. -/
theorem forall_mem_preorder_image {catalog : Catalog} (hc : catalog.Coherent) {P : Node → Prop}
    {t : Node} (hstay : ∀ n ∈ t.preorder, P (n.mapChildren (Node.image catalog.replace)))
    (hreplace : ∀ n ∈ t.preorder, ∀ rule ∈ catalog.rules, rule.accepts n = true →
      P (rule.transform (n.mapChildren (Node.image catalog.replace))))
    (hname : ∀ rule ∈ catalog.rules, P (.named rule.name))
    (hrename : ∀ rule ∈ catalog.rules, ∀ extra, P (.identifier (.text rule.symbol) extra) →
      P (.identifier (.text rule.name) extra)) :
    ∀ n ∈ (t.image catalog.replace).preorder, P n := by
  induction t using Node.induction_on_children with
  | step t ih =>
    have hchildren : ∀ c ∈ (t.mapChildren (Node.image catalog.replace)).children,
        ∀ n ∈ c.preorder, P n := by
      rw [Node.children_mapChildren]
      intro c hmem
      obtain ⟨child, hchild, rfl⟩ := List.mem_map.1 hmem
      have hbelow : ∀ n ∈ child.preorder, n ∈ t.preorder := fun n hn =>
        Node.mem_preorder.2 (.inr ⟨child, hchild, hn⟩)
      exact ih child hchild (fun n hn => hstay n (hbelow n hn))
        fun n hn => hreplace n (hbelow n hn)
    rcases image_eq_transform_or hc t with ⟨rule, hrule, haccepts, himage⟩ | himage
    · rw [himage]
      refine Node.forall_mem_preorder.2
        ⟨hreplace t t.mem_preorder_self rule hrule haccepts, fun c hmem => ?_⟩
      have haccepts' := accepts_mapChildren_image catalog rule t ▸ haccepts
      rcases Rule.mem_children_transform haccepts' hmem with hchild | ⟨extra, rfl, hextra⟩
      · exact hchildren c hchild
      · refine Node.forall_mem_preorder.2 ⟨?_, fun _ hc => absurd hc List.not_mem_nil⟩
        -- The name is put there for an operator, or in the place of another name.
        rcases hextra with rfl | hcallee
        · exact hname rule hrule
        · exact hrename rule hrule extra (hchildren _ hcallee _ (Node.mem_preorder_self _))
    · rw [himage]
      exact Node.forall_mem_preorder.2 ⟨hstay t t.mem_preorder_self, hchildren⟩

/-- No node of a tree has a rule. -/
def Settled (catalog : Catalog) (n : Node) : Prop := ∀ m ∈ n.preorder, catalog.find m = .ok none

variable {catalog : Catalog}

/-! ## Settled trees -/

/-- A tree is settled if its root has no rule and its children are settled. -/
theorem settled_iff {n : Node} :
    catalog.Settled n ↔ catalog.find n = .ok none ∧ ∀ c ∈ n.children, catalog.Settled c :=
  Node.forall_mem_preorder

/-- An identifier is settled. -/
theorem settled_identifier (name : Slot) (extra : Members Json) :
    catalog.Settled (.identifier name extra) :=
  settled_iff.2 ⟨find_of_symbol?_eq_none rfl, fun _ hc => absurd hc List.not_mem_nil⟩

/-- A settled tree is its own image. -/
theorem Settled.image_eq {n : Node} (h : catalog.Settled n) : n.image catalog.replace = n :=
  Node.image_eq_self n fun m hm => by rw [replace, h m hm]

/-- An identifier is its own image. -/
theorem image_identifier (name : Slot) (extra : Members Json) :
    (Node.identifier name extra).image catalog.replace = .identifier name extra :=
  (settled_identifier name extra).image_eq

/-- What a rule of a valid catalog makes of a node that it accepts has no rule itself. -/
theorem find_transform {rule : Rule} {n : Node} (hc : catalog.Valid) (hrule : rule ∈ catalog.rules)
    (h : rule.accepts n = true) : catalog.find (rule.transform n) = .ok none := by
  obtain ⟨htype, hsymbol⟩ := Rule.nodeType_transform h
  -- A rule that finds a call is one of a function, and the call has the name of a replacement.
  have hnone : catalog.index.lookup (NodeType.call, rule.name) = none := by
    rw [Option.eq_none_iff_forall_ne_some]
    intro other hother
    obtain ⟨hmem, hkey⟩ := (hc.coherent _ _).1 hother
    obtain ⟨hcall, hname⟩ := Rule.mem_keys.1 hkey
    have hfunction : other.category = .function := by
      cases hcategory : other.category with
      | function => rfl
      | unary | binary | equality => simp [hcategory, Category.nodeTypes] at hcall
    exact hc.name_ne_symbol hrule hmem hfunction hname
  rw [find_of_symbol?_eq_text hsymbol, htype, hnone, Option.filter_none]

/-- An instrumented tree is settled, if all nodes of the tree could be looked up. -/
theorem settled_image (hc : catalog.Valid) (n : Node)
    (hfind : ∀ m ∈ n.preorder, ∃ found, catalog.find m = .ok found) :
    catalog.Settled (n.image catalog.replace) := by
  induction n using Node.induction_on_children with
  | step n ih =>
    -- The induction gives settled children; what a rule adds to them is an identifier.
    have hchildren : ∀ c ∈ (n.mapChildren (Node.image catalog.replace)).children,
        catalog.Settled c := by
      rw [Node.children_mapChildren]
      intro c hmem
      obtain ⟨child, hchild, rfl⟩ := List.mem_map.1 hmem
      exact ih child hchild fun m hm => hfind m (Node.mem_preorder.2 (.inr ⟨child, hchild, hm⟩))
    obtain ⟨found, hfound⟩ := hfind n n.mem_preorder_self
    rw [← find_mapChildren_image] at hfound
    rw [Node.image_eq, replace, hfound]
    cases found with
    | none => exact settled_iff.2 ⟨hfound, hchildren⟩
    | some rule =>
      obtain ⟨hrule, haccepts⟩ := (find_eq_some_iff hc.coherent).1 hfound
      refine settled_iff.2 ⟨find_transform hc hrule haccepts, fun c hmem => ?_⟩
      rcases Rule.mem_children_transform haccepts hmem with hmem | ⟨extra, rfl, _⟩
      · exact hchildren c hmem
      · exact settled_identifier _ _

/-! ## Trees that are given back -/

/-- What the pass gives back for a node, where `none` is the node itself. The results of the
    children are put into the node, which stays the node that it is if they all stay; what a rule
    makes is new. -/
inductive Returns (catalog : Catalog) : Node → Option Node → Prop
  | keep {n : Node} {results : Node → Option Node}
      (children : ∀ c ∈ n.children, Returns catalog c (results c))
      (found : catalog.find ((n.replaceChildren results).getD n) = .ok none) :
      Returns catalog n (n.replaceChildren results)
  | replace {n : Node} {results : Node → Option Node} {rule : Rule}
      (children : ∀ c ∈ n.children, Returns catalog c (results c))
      (found : catalog.find ((n.replaceChildren results).getD n) = .ok (some rule)) :
      Returns catalog n (some (rule.transform ((n.replaceChildren results).getD n)))

/-- The pass gives back the image of a tree, and the tree itself if it is settled. -/
theorem Returns.image_eq {n : Node} {result : Option Node} (h : catalog.Returns n result) :
    result.getD n = n.image catalog.replace ∧ (result = none ↔ catalog.Settled n) := by
  induction h with
  | @keep n results _ found ih =>
    rw [Node.getD_replaceChildren fun c hc => (ih c hc).1] at found ⊢
    refine ⟨by rw [Node.image_eq, Catalog.replace, found], ?_⟩
    rw [Node.replaceChildren_eq_none_iff, settled_iff, ← find_mapChildren_image]
    constructor
    · intro hnone
      exact ⟨found, fun c hc => (ih c hc).2.1 (hnone c hc)⟩
    · intro h c hc
      exact (ih c hc).2.2 (h.2 c hc)
  | @replace n results rule _ found ih =>
    rw [Node.getD_replaceChildren fun c hc => (ih c hc).1] at found ⊢
    refine ⟨by rw [Node.image_eq, Catalog.replace, found, Option.getD_some], fun hnone => ?_,
      fun h => ?_⟩
    · cases hnone
    · rw [find_mapChildren_image, (settled_iff.1 h).1] at found
      cases found

/-- The pass gives something back if all nodes of the tree can be looked up. -/
theorem exists_returns (n : Node) (hfind : ∀ m ∈ n.preorder, ∃ found, catalog.find m = .ok found) :
    ∃ result, catalog.Returns n result := by
  induction n using Node.induction_on_children with
  | step n ih =>
    have hchildren : ∀ c, ∃ result, c ∈ n.children → catalog.Returns c result := fun c => by
      by_cases hc : c ∈ n.children
      · obtain ⟨result, hresult⟩ :=
          ih c hc fun m hm => hfind m (Node.mem_preorder.2 (.inr ⟨c, hc, hm⟩))
        exact ⟨result, fun _ => hresult⟩
      · exact ⟨none, fun h => absurd h hc⟩
    -- One function has to give the results of all children.
    choose results hresults using hchildren
    obtain ⟨found, hfound⟩ := hfind n n.mem_preorder_self
    rw [← find_mapChildren_image,
      ← Node.getD_replaceChildren fun c hc => (hresults c hc).image_eq.1] at hfound
    cases found with
    | none => exact ⟨_, .keep hresults hfound⟩
    | some rule => exact ⟨_, .replace hresults hfound⟩

/-- The pass gives back one thing only. -/
theorem Returns.unique {n : Node} {result other : Option Node} (h : catalog.Returns n result)
    (hother : catalog.Returns n other) : other = result := by
  obtain ⟨himage, hnone⟩ := h.image_eq
  obtain ⟨himage', hnone'⟩ := hother.image_eq
  -- Either both results are the node itself, or both are its image.
  rcases result with _ | r
  · exact hnone'.2 (hnone.1 rfl)
  · rcases other with _ | r'
    · exact (hnone.2 (hnone'.1 rfl)).symm
    · exact congrArg some (himage'.trans himage.symm)

/-! ## The pass -/

/-- Nothing in a tree is replaced if and only if it is settled. -/
theorem replaced_eq_nil_iff {n : Node}
    (hfind : ∀ m ∈ n.preorder, ∃ found, catalog.find m = .ok found) :
    n.postorder.filterMap catalog.replacementName? = [] ↔ catalog.Settled n := by
  rw [List.filterMap_eq_nil_iff]
  constructor
  · intro h m hm
    obtain ⟨found, hfound⟩ := hfind m hm
    have hname := h m (Node.mem_postorder_iff.2 hm)
    rw [replacementName?_of_find hfound, Option.map_eq_none_iff] at hname
    rw [hfound, hname]
  · intro h m hm
    rw [replacementName?_of_find (h m (Node.mem_postorder_iff.1 hm)), Option.map_none]

/-- A tree is settled if and only if no rule accepts one of its nodes. -/
theorem settled_iff_matching (hc : catalog.Valid) {n : Node}
    (hfind : ∀ m ∈ n.preorder, ∃ found, catalog.find m = .ok found) :
    catalog.Settled n ↔ ∀ m ∈ n.preorder, catalog.matching m = [] :=
  forall₂_congr fun m hm => (matching_eq_nil_iff hc.coherent (hfind m hm)).symm

/-- Instrumentation is complete and stable. No rule accepts a node of the instrumented tree, and a
    second pass over it replaces nothing and gives it back itself. The first pass gives its own tree
    back if no rule accepts a node of it, and only then is the instrumented tree an equal one. -/
theorem instrument_complete_stable {specs : List Spec} {t r : Node} {stats : Stats}
    (hcatalog : ofSpecs specs = .ok catalog) (hpass : catalog.instrument t = .ok (r, stats)) :
    (∀ n ∈ r.preorder, catalog.matching n = []) ∧
      (∃ again, catalog.instrument r = .ok (r, again) ∧ again.total = 0 ∧
        ∀ result, catalog.Returns r result ↔ result = none) ∧
      (∃ given, (∀ result, catalog.Returns t result ↔ result = given) ∧ given.getD t = r ∧
        (given = none ↔ ∀ n ∈ t.preorder, catalog.matching n = [])) ∧
      (r = t ↔ ∀ n ∈ t.preorder, catalog.matching n = []) ∧
      (stats.isUnchanged = true ↔ ∀ n ∈ t.preorder, catalog.matching n = []) := by
  have hc := valid_of_ofSpecs hcatalog
  obtain ⟨hfind, rfl, rfl⟩ := instrument_eq_ok_iff.1 hpass
  have hsettled := settled_image hc t hfind
  have hfind' : ∀ n ∈ (t.image catalog.replace).preorder, ∃ found, catalog.find n = .ok found :=
    fun n hn => ⟨none, hsettled n hn⟩
  refine ⟨(settled_iff_matching hc hfind').1 hsettled, ?_, ?_, ?_, ?_⟩
  · refine ⟨_, instrument_eq_ok_iff.2 ⟨hfind', hsettled.image_eq.symm, rfl⟩, ?_, fun result => ?_⟩
    · exact List.length_eq_zero_iff.2 ((replaced_eq_nil_iff hfind').2 hsettled)
    · obtain ⟨given, hgiven⟩ := exists_returns _ hfind'
      obtain rfl := hgiven.image_eq.2.2 hsettled
      exact ⟨hgiven.unique, fun h => h ▸ hgiven⟩
  · obtain ⟨given, hgiven⟩ := exists_returns t hfind
    obtain ⟨himage, hnone⟩ := hgiven.image_eq
    refine ⟨given, fun result => ⟨hgiven.unique, fun h => h ▸ hgiven⟩, himage, ?_⟩
    rw [hnone, settled_iff_matching hc hfind]
  · rw [← settled_iff_matching hc hfind]
    exact ⟨fun h => h ▸ hsettled, Settled.image_eq⟩
  · rw [← settled_iff_matching hc hfind, ← replaced_eq_nil_iff hfind]
    exact List.isEmpty_iff

/-- The call `eval(!x)` becomes a call of a call, which is stable, and is not given back. -/
theorem instrument_eval_not_stable :
    ∃ catalog r stats,
      ofSpecs [⟨"!", .unary, "not", "js_logical_not"⟩, ⟨"eval", .function, "run", "js_eval"⟩] =
        .ok catalog ∧
      catalog.instrument (.call (.named "eval")
        (.list [.node (.unary .unary (.text "!") (.named "x") (.data (.boolean true)) [])]) []) =
        .ok (r, stats) ∧
      stats.replaced = ["not", "run"] ∧
      (∀ n ∈ r.preorder, catalog.matching n = []) ∧
      (∃ again, catalog.instrument r = .ok (r, again) ∧ again.total = 0 ∧
        ∀ result, catalog.Returns r result ↔ result = none) ∧
      r ≠ .call (.named "eval")
        (.list [.node (.unary .unary (.text "!") (.named "x") (.data (.boolean true)) [])]) [] := by
  let not : Spec := ⟨"!", .unary, "not", "js_logical_not"⟩
  let eval : Spec := ⟨"eval", .function, "run", "js_eval"⟩
  let catalog : Catalog := ⟨[⟨not⟩, ⟨eval⟩],
    [((.unary, "!"), ⟨not⟩), ((.update, "!"), ⟨not⟩), ((.call, "eval"), ⟨eval⟩)]⟩
  have hcatalog : ofSpecs [not, eval] = .ok catalog := rfl
  obtain ⟨r, hpass⟩ : ∃ r, catalog.instrument (.call (.named "eval")
      (.list [.node (.unary .unary (.text "!") (.named "x") (.data (.boolean true)) [])]) []) =
      .ok (r, ⟨4, ["not", "run"]⟩) := ⟨_, rfl⟩
  obtain ⟨hcomplete, hstable, _, hequal, hunchanged⟩ := instrument_complete_stable hcatalog hpass
  refine ⟨catalog, r, _, hcatalog, hpass, rfl, hcomplete, hstable, fun h => ?_⟩
  exact Bool.noConfusion (hunchanged.2 (hequal.1 h))

end Catalog

end TaintWeave
