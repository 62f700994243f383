import TaintWeave.Proofs.Instrumentation.Stability
import TaintWeave.Proofs.Node.Relation
import TaintWeave.Proofs.Operator.Distinct

/-!
# What instrumentation forgets

The call that replaces an operator has the operands in their places and the extra members of the
node, and its name tells the symbol, for no two operators of a table have one name. It does not tell
`++x` from `x++`, nor an operator that evaluates both operands from one that may not. This is all
that is forgotten, as long as a tree does not call a replacement name itself.

* `Catalog.NameFree`: the trees without calls of replacement names.
* `Catalog.Alike`: trees that are equal but for what is forgotten.
* `Catalog.alike_of_image_eq`, `Catalog.Alike.image_eq`: trees become one if and only if they are
  alike.
* `Catalog.instrument_eq_iff_alike`: the same of the pass, for the catalog of a table that is built.
-/

namespace TaintWeave

/-- A call that stands for something has it for the name called. -/
theorem Node.calleeName?_of_symbol? {n : Node} {s : Slot} (htype : n.nodeType = .call)
    (h : n.symbol? = some s) : n.calleeName? = some s := by
  refine (symbol?_eq_some h).resolve_left fun hoperator => ?_
  cases n with
  | unary kind _ _ _ _ => cases kind <;> cases htype
  | binary kind _ _ _ _ => cases kind <;> cases htype
  | identifier _ _ | literal _ _ _ | call _ _ _ | other _ _ _ => cases hoperator

namespace Catalog

/-- No call in a tree is one of a replacement name. -/
def NameFree (catalog : Catalog) (t : Node) : Prop :=
  ∀ n ∈ t.preorder, ∀ rule ∈ catalog.rules, n.calleeName? ≠ some (.text rule.name)

/-- Trees that are equal, except that nodes that a rule replaces may be of different types and have
    the operator on different sides of the operand. -/
inductive Alike (catalog : Catalog) : Node → Node → Prop
  | same {n m : Node} (h : Node.Rel (Alike catalog) n m) : Alike catalog n m
  | unary {rule : Rule} {kind kind' : UnaryKind} {operator leading leading' : Slot}
      {extra : Members Json} {argument argument' : Node} (mem : rule ∈ catalog.rules)
      (accepts : rule.accepts (.unary kind operator argument leading extra) = true)
      (accepts' : rule.accepts (.unary kind' operator argument' leading' extra) = true)
      (h : Alike catalog argument argument') :
      Alike catalog (.unary kind operator argument leading extra)
        (.unary kind' operator argument' leading' extra)
  | binary {rule : Rule} {kind kind' : BinaryKind} {operator : Slot} {extra : Members Json}
      {left right left' right' : Node} (mem : rule ∈ catalog.rules)
      (accepts : rule.accepts (.binary kind operator left right extra) = true)
      (accepts' : rule.accepts (.binary kind' operator left' right' extra) = true)
      (hleft : Alike catalog left left') (hright : Alike catalog right right') :
      Alike catalog (.binary kind operator left right extra)
        (.binary kind' operator left' right' extra)

variable {catalog : Catalog}

theorem NameFree.of_mem_children {n c : Node} (h : catalog.NameFree n) (hc : c ∈ n.children) :
    catalog.NameFree c := fun m hm => h m (Node.mem_preorder.2 (.inr ⟨c, hc, hm⟩))

/-! ## One rule for both nodes -/

/-- No two rules of the catalog of a table that is built have one name. -/
theorem nodup_names {hasNative : String → Bool} {entries : List (Entry Value)} {table : Table}
    (htable : Table.construct hasNative entries = .ok table)
    (hcatalog : ofTable table = .ok catalog) :
    (catalog.rules.map Rule.name).Nodup := by
  rw [rules_of_ofSpecs hcatalog, List.map_map]
  exact (Table.wellFormed_of_construct htable).replacements

/-- Nodes of which two rules make one were accepted by rules of one name. -/
theorem name_eq_of_transform_eq {rule rule' : Rule} {n m : Node} (h : rule.accepts n = true)
    (h' : rule'.accepts m = true) (heq : rule.transform n = rule'.transform m) :
    rule.name = rule'.name := by
  have hname := (Rule.nodeType_transform h).2
  rw [heq, (Rule.nodeType_transform h').2] at hname
  injection hname with hname
  injection hname with hname
  injection hname with hname
  exact hname.symm

/-- What a rule makes of a node is not what becomes of a node that is kept, unless this one calls a
    replacement name. -/
theorem transform_ne_mapChildren {rule : Rule} {n m : Node} (hrule : rule ∈ catalog.rules)
    (h : rule.accepts n = true) (hm : catalog.NameFree m) :
    rule.transform n ≠ m.mapChildren (Node.image catalog.replace) := by
  intro heq
  obtain ⟨htype, hsymbol⟩ := Rule.nodeType_transform h
  rw [heq, Node.nodeType_mapChildren] at htype
  rw [heq, Node.symbol?_mapChildren fun c _ => identifierName?_image c] at hsymbol
  exact hm m m.mem_preorder_self rule hrule (Node.calleeName?_of_symbol? htype hsymbol)

/-- Nodes of which one rule makes one node are alike if their children are that become one. -/
theorem alike_of_transform_eq {rule : Rule} {n m : Node} (hrule : rule ∈ catalog.rules)
    (hn : rule.accepts n = true) (hm : rule.accepts m = true)
    (h : ∀ c ∈ n.children, ∀ d ∈ m.children,
      c.image catalog.replace = d.image catalog.replace → catalog.Alike c d)
    (heq : rule.transform (n.mapChildren (Node.image catalog.replace)) =
      rule.transform (m.mapChildren (Node.image catalog.replace))) :
    catalog.Alike n m := by
  -- Both nodes are of the category of the rule, so they have the same constructor.
  cases Rule.Accepts.of_accepts hn with
  | unary category =>
    cases Rule.Accepts.of_accepts hm with
    | unary _ =>
      simp only [Node.mapChildren, Rule.transform, Node.replacement, List.map_cons, List.map_nil,
        Node.call.injEq, Slot.list.injEq, List.cons.injEq, Slot.node.injEq, true_and,
        and_true] at heq
      obtain ⟨hargument, rfl⟩ := heq
      exact .unary hrule hn hm (h _ (by simp [Node.children]) _ (by simp [Node.children]) hargument)
    | binary category' => simp [category] at category'
    | call category' => simp [category] at category'
  | binary category =>
    cases Rule.Accepts.of_accepts hm with
    | unary category' => simp [category'] at category
    | binary _ =>
      simp only [Node.mapChildren, Rule.transform, Node.replacement, List.map_cons, List.map_nil,
        Node.call.injEq, Slot.list.injEq, List.cons.injEq, Slot.node.injEq, true_and,
        and_true] at heq
      obtain ⟨⟨hleft, hright⟩, rfl⟩ := heq
      exact .binary hrule hn hm (h _ (by simp [Node.children]) _ (by simp [Node.children]) hleft)
        (h _ (by simp [Node.children]) _ (by simp [Node.children]) hright)
    | call category' => simp [category'] at category
  | call category =>
    cases Rule.Accepts.of_accepts hm with
    | unary category' => simp [category] at category'
    | binary category' => simp [category] at category'
    | call _ =>
      -- The name that has been replaced is that of the rule in both.
      simp only [Node.mapChildren, image_identifier, Rule.transform, Node.call.injEq,
        Node.identifier.injEq, true_and] at heq
      obtain ⟨rfl, harguments, rfl⟩ := heq
      refine .same (.call (.same (.identifier _ _)) (Slot.rel_of_map_eq _ _ ?_ harguments))
      exact fun c hc d hd => h c (List.mem_cons_of_mem _ hc) d (List.mem_cons_of_mem _ hd)

/-! ## Alike trees -/

/-- Trees of which instrumentation makes one tree are alike, unless they call replacement names. -/
theorem alike_of_image_eq (hc : catalog.Valid) (hnames : (catalog.rules.map Rule.name).Nodup)
    {n m : Node} (hn : catalog.NameFree n) (hm : catalog.NameFree m)
    (heq : n.image catalog.replace = m.image catalog.replace) : catalog.Alike n m := by
  induction n using Node.induction_on_children generalizing m with
  | step n ih =>
    have hchildren : ∀ c ∈ n.children, ∀ d ∈ m.children,
        c.image catalog.replace = d.image catalog.replace → catalog.Alike c d :=
      fun c hmem d hmem' => ih c hmem (hn.of_mem_children hmem) (hm.of_mem_children hmem')
    rcases image_eq_transform_or hc.coherent n with ⟨rule, hrule, haccepts, himage⟩ | himage
    · rw [himage] at heq
      have htransform := accepts_mapChildren_image catalog rule n ▸ haccepts
      rcases image_eq_transform_or hc.coherent m with ⟨rule', hrule', haccepts', himage'⟩ | himage'
      · -- Both nodes are replaced, by rules of one name, which are one rule.
        rw [himage'] at heq
        have htransform' := accepts_mapChildren_image catalog rule' m ▸ haccepts'
        obtain rfl := List.inj_on_of_nodup_map hnames hrule hrule'
          (name_eq_of_transform_eq htransform htransform' heq)
        exact alike_of_transform_eq hrule haccepts haccepts' hchildren heq
      · rw [himage'] at heq
        exact absurd heq (transform_ne_mapChildren hrule htransform hm)
    · rw [himage] at heq
      rcases image_eq_transform_or hc.coherent m with ⟨rule, hrule, haccepts, himage'⟩ | himage'
      · rw [himage'] at heq
        have htransform := accepts_mapChildren_image catalog rule m ▸ haccepts
        exact absurd heq.symm (transform_ne_mapChildren hrule htransform hn)
      · rw [himage'] at heq
        exact .same (Node.rel_of_mapChildren_eq hchildren heq)

/-- Instrumentation makes one tree of alike trees. -/
theorem Alike.image_eq (hc : catalog.Coherent) {n m : Node} (h : catalog.Alike n m) :
    n.image catalog.replace = m.image catalog.replace := by
  induction n using Node.induction_on_children generalizing m with
  | step n ih =>
    cases h with
    | same h => rw [Node.image_eq, Node.image_eq, h.mapChildren_eq fun c hmem d => ih c hmem]
    | unary mem accepts accepts' h =>
      rw [image_of_accepts hc mem accepts, image_of_accepts hc mem accepts', Node.mapChildren,
        Node.mapChildren, ih _ (by simp [Node.children]) h]
      rfl
    | binary mem accepts accepts' hleft hright =>
      rw [image_of_accepts hc mem accepts, image_of_accepts hc mem accepts', Node.mapChildren,
        Node.mapChildren, ih _ (by simp [Node.children]) hleft,
        ih _ (by simp [Node.children]) hright]
      rfl

/-- Instrumentation loses nothing of a tree but the types of the operators that are replaced, and
    the sides on which they stand: it makes one tree of two, which do not call replacement names, if
    and only if they are equal but for this. Which natives there are does not matter. -/
theorem instrument_eq_iff_alike {hasNative : String → Bool} {entries : List (Entry Value)}
    {table : Table} {t t' r r' : Node} {stats stats' : Stats}
    (htable : Table.construct hasNative entries = .ok table)
    (hcatalog : ofTable table = .ok catalog) (ht : catalog.NameFree t) (ht' : catalog.NameFree t')
    (hpass : catalog.instrument t = .ok (r, stats))
    (hpass' : catalog.instrument t' = .ok (r', stats')) : r = r' ↔ catalog.Alike t t' := by
  have hc := valid_of_ofSpecs hcatalog
  have hnames := nodup_names htable hcatalog
  obtain ⟨-, rfl, -⟩ := instrument_eq_ok_iff.1 hpass
  obtain ⟨-, rfl, -⟩ := instrument_eq_ok_iff.1 hpass'
  exact ⟨alike_of_image_eq hc hnames ht ht', Alike.image_eq hc.coherent⟩

/-- Of `++x + y` and `x++ + y` one tree is made, in which the operands stand as before. -/
theorem instrument_eq_iff_alike_increment :
    ∃ table catalog r stats,
      Table.ofEntries [⟨"++", .category .unary, "inc", "js_increment"⟩,
        ⟨"+", .category .binary, "add", "js_add"⟩] = .ok table ∧
      ofTable table = .ok catalog ∧
      catalog.instrument (.binary .binary (.text "+")
        (.unary .update (.text "++") (.named "x") (.data (.boolean true)) []) (.named "y") []) =
        .ok (r, stats) ∧
      catalog.instrument (.binary .binary (.text "+")
        (.unary .update (.text "++") (.named "x") (.data (.boolean false)) []) (.named "y") []) =
        .ok (r, stats) ∧
      stats.replaced = ["inc", "add"] ∧
      catalog.Alike
        (.binary .binary (.text "+")
          (.unary .update (.text "++") (.named "x") (.data (.boolean true)) []) (.named "y") [])
        (.binary .binary (.text "+")
          (.unary .update (.text "++") (.named "x") (.data (.boolean false)) []) (.named "y") []) := by
  let inc : Spec := ⟨"++", .unary, "inc", "js_increment"⟩
  let add : Spec := ⟨"+", .binary, "add", "js_add"⟩
  let catalog : Catalog := ⟨[⟨inc⟩, ⟨add⟩],
    [((.unary, "++"), ⟨inc⟩), ((.update, "++"), ⟨inc⟩), ((.binary, "+"), ⟨add⟩),
      ((.logical, "+"), ⟨add⟩)]⟩
  have htable : Table.ofEntries [inc.toEntry, add.toEntry] = .ok ⟨[inc, add]⟩ :=
    toOption_eq_some_iff.1 (by decide +kernel)
  have hbuilt := (Table.ofEntries_eq_construct _).symm.trans htable
  have hcatalog : ofTable ⟨[inc, add]⟩ = .ok catalog := rfl
  -- The one call in both trees is not there before instrumentation.
  have hfree : ∀ leading, catalog.NameFree (.binary .binary (.text "+")
      (.unary .update (.text "++") (.named "x") leading []) (.named "y") []) := by
    intro leading n hn rule _
    rw [Node.preorder, Node.preorder, Node.named, Node.named, Node.preorder, Node.preorder] at hn
    simp only [List.mem_cons, List.mem_append, List.not_mem_nil, or_false] at hn
    rcases hn with rfl | (rfl | rfl) | rfl <;> exact (Option.some_ne_none _).symm
  refine ⟨⟨[inc, add]⟩, catalog, _, _, htable, hcatalog, rfl, rfl, rfl, ?_⟩
  exact (instrument_eq_iff_alike hbuilt hcatalog (hfree _) (hfree _) rfl rfl).1 rfl

end Catalog

end TaintWeave
