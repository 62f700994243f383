import TaintWeave.Catalog.Basic
import TaintWeave.Proofs.Outcome

/-!
# Coherent catalogs

What the construction of a catalog ensures. Its index holds every rule under the keys that the rule
claims, and nothing else, so that looking a node up and asking the rules one by one come to the
same. No replacement name is the symbol of a function.

* `Catalog.Valid`: these two properties.
* `Catalog.valid_of_ofSpecs`: a catalog that is built has them, and one rule per operator
  (`Catalog.rules_of_ofSpecs`).
* `Catalog.find_eq_some_iff`, `Catalog.matching_eq_nil_iff`: the look-up in a valid catalog.
-/

namespace TaintWeave

/-! ## What a rule accepts -/

/-- A slot holds a text if it is that text. -/
theorem Slot.text?_eq_some_iff {s : Slot} {t : String} : s.text? = some t ↔ s = .text t := by
  constructor
  · intro h
    cases s with
    | node n => cases h
    | list items => cases h
    | data j =>
      cases j with
      | text u =>
        cases h
        rfl
      | null | boolean _ | number _ | array _ | object _ => cases h
  · rintro rfl
    rfl

/-- A rule claims the types of its category, all with its symbol. -/
theorem Rule.mem_keys {rule : Rule} {key : RuleKey} :
    key ∈ rule.keys ↔ key.1 ∈ rule.category.nodeTypes ∧ key.2 = rule.symbol := by
  rw [keys, List.mem_map]
  constructor
  · rintro ⟨t, ht, rfl⟩
    exact ⟨ht, rfl⟩
  · rintro ⟨ht, hsymbol⟩
    exact ⟨key.1, ht, by rw [← hsymbol]⟩

/-- A rule accepts the nodes of its types that stand for its symbol. -/
theorem Rule.accepts_iff {rule : Rule} {n : Node} :
    rule.accepts n = true ↔
      n.nodeType ∈ rule.category.nodeTypes ∧ n.symbol? = some (.text rule.symbol) := by
  rw [accepts, Bool.and_eq_true, List.contains_iff_mem, beq_iff_eq, Option.bind_eq_some_iff]
  refine and_congr_right fun _ => ?_
  constructor
  · rintro ⟨s, hs, ht⟩
    rw [hs, Slot.text?_eq_some_iff.1 ht]
  · intro h
    exact ⟨_, h, rfl⟩

/-- The nodes that a rule accepts, by its category: operators with its symbol, and calls of it by
    its name. -/
inductive Rule.Accepts (rule : Rule) : Node → Prop
  | unary {kind : UnaryKind} {argument : Node} {leading : Slot} {extra : Members Json}
      (category : rule.category = .unary) :
      Accepts rule (.unary kind (.text rule.symbol) argument leading extra)
  | binary {kind : BinaryKind} {left right : Node} {extra : Members Json}
      (category : rule.category = .binary ∨ rule.category = .equality ∧ kind = .binary) :
      Accepts rule (.binary kind (.text rule.symbol) left right extra)
  | call {calleeExtra extra : Members Json} {arguments : Slot}
      (category : rule.category = .function) :
      Accepts rule (.call (.identifier (.text rule.symbol) calleeExtra) arguments extra)

/-- What a node stands for, as far as it is a text, is its operator or the name called. -/
theorem Node.symbol?_eq_some {n : Node} {s : Slot} (h : n.symbol? = some s) :
    n.operator? = some s ∨ n.calleeName? = some s := by
  cases n with
  | unary kind operator argument leading extra =>
    simp only [symbol?] at h
    split at h
    · cases h
    · exact .inl h
  | binary kind operator left right extra =>
    simp only [symbol?] at h
    split at h
    · cases h
    · exact .inl h
  | call callee arguments extra =>
    simp only [symbol?] at h
    split at h
    · cases h
    · exact .inr h
  | identifier _ _ | literal _ _ _ | other _ _ _ => cases h

/-- A rule accepts nothing else. -/
theorem Rule.Accepts.of_accepts {rule : Rule} {n : Node} (h : rule.accepts n = true) :
    rule.Accepts n := by
  obtain ⟨htype, hsymbol⟩ := accepts_iff.1 h
  have hstands := Node.symbol?_eq_some hsymbol
  cases n with
  | unary kind operator argument leading extra =>
    obtain ⟨⟨⟩⟩ | ⟨⟨⟩⟩ := hstands
    refine .unary ?_
    cases hcategory : rule.category <;> cases kind <;>
      simp [hcategory, Category.nodeTypes, Node.nodeType, UnaryKind.nodeType] at htype ⊢
  | binary kind operator left right extra =>
    obtain ⟨⟨⟩⟩ | ⟨⟨⟩⟩ := hstands
    refine .binary ?_
    cases hcategory : rule.category <;> cases kind <;>
      simp [hcategory, Category.nodeTypes, Node.nodeType, BinaryKind.nodeType] at htype ⊢
  | call callee arguments extra =>
    cases callee with
    | identifier name calleeExtra =>
      obtain ⟨⟨⟩⟩ | ⟨⟨⟩⟩ := hstands
      refine .call ?_
      cases hcategory : rule.category <;>
        simp [hcategory, Category.nodeTypes, Node.nodeType] at htype ⊢
    | literal _ _ _ | unary _ _ _ _ _ | binary _ _ _ _ _ | call _ _ _ | other _ _ _ =>
      cases hsymbol
  | identifier _ _ | literal _ _ _ | other _ _ _ => cases hsymbol

namespace Catalog

/-- The index holds the rules under the keys that they claim, and nothing else. -/
def Coherent (catalog : Catalog) : Prop :=
  ∀ key rule, catalog.index.lookup key = some rule ↔ rule ∈ catalog.rules ∧ key ∈ rule.keys

/-- What the construction of a catalog ensures. -/
structure Valid (catalog : Catalog) : Prop where
  coherent : catalog.Coherent
  stable : ∀ rule ∈ catalog.rules, rule.name ∉ catalog.functionSymbols

/-! ## Construction -/

/-- A rule that is put into an index under a free key is found there, and all else is found as
    before. -/
theorem lookup_addKey {rule : Rule} {index index' : List (RuleKey × Rule)} {key : RuleKey}
    (h : addKey rule index key = .ok index') (k : RuleKey) (r : Rule) :
    index'.lookup k = some r ↔ index.lookup k = some r ∨ (k = key ∧ r = rule) := by
  rw [addKey] at h
  split at h
  · cases h
  · rename_i hfree
    cases h
    rw [List.lookup_append, Option.or_eq_some_iff, List.lookup_cons]
    -- The new rule comes last, and the rules before it have other keys.
    by_cases hk : k = key
    · subst hk
      simp [hfree, eq_comm]
    · simp [hk, beq_false_of_ne hk]

/-- A rule that is put into an index under free keys is found under these. -/
theorem lookup_addKeys {rule : Rule} {index index' : List (RuleKey × Rule)} {keys : List RuleKey}
    (h : keys.foldlM (addKey rule) index = .ok index') (k : RuleKey) (r : Rule) :
    index'.lookup k = some r ↔ index.lookup k = some r ∨ (k ∈ keys ∧ r = rule) := by
  refine foldlM_ok_induction
    (P := fun done i => i.lookup k = some r ↔ index.lookup k = some r ∨ (k ∈ done ∧ r = rule))
    h (by simp) fun done i key i' hi hstep => ?_
  rw [lookup_addKey hstep, hi, List.mem_append, List.mem_singleton, or_and_right, or_assoc]

/-- A catalog that has taken in an operator has one more rule. -/
theorem rules_add {catalog catalog' : Catalog} {spec : Spec} (h : catalog.add spec = .ok catalog') :
    catalog'.rules = catalog.rules ++ [⟨spec⟩] := by
  obtain ⟨index, _, hresult⟩ := bind_eq_ok.1 h
  cases hresult
  rfl

/-- A coherent catalog that has taken in an operator is coherent. -/
theorem Coherent.add {catalog catalog' : Catalog} {spec : Spec} (hc : catalog.Coherent)
    (h : catalog.add spec = .ok catalog') : catalog'.Coherent := by
  obtain ⟨index, hindex, hresult⟩ := bind_eq_ok.1 h
  cases hresult
  intro key rule
  rw [lookup_addKeys hindex, hc key rule, List.mem_append, List.mem_singleton, or_and_right]
  refine or_congr_right ⟨?_, ?_⟩
  · rintro ⟨hkey, rfl⟩
    exact ⟨rfl, hkey⟩
  · rintro ⟨rfl, hkey⟩
    exact ⟨hkey, rfl⟩

/-- The rules of a catalog that has taken in operators one after the other. -/
theorem rules_foldlM_add {specs : List Spec} {catalog : Catalog}
    (h : specs.foldlM add empty = .ok catalog) : catalog.rules = specs.map Rule.mk :=
  foldlM_ok_induction (P := fun done c => c.rules = done.map Rule.mk) h rfl
    fun done c spec c' hc hstep => by
      rw [rules_add hstep, hc, List.map_append, List.map_cons, List.map_nil]

/-- A catalog that has taken in operators one after the other is coherent. -/
theorem coherent_foldlM_add {specs : List Spec} {catalog : Catalog}
    (h : specs.foldlM add empty = .ok catalog) : catalog.Coherent :=
  foldlM_ok_induction (P := fun _ c => c.Coherent) h
    (fun _ _ => ⟨nofun, fun ⟨h, _⟩ => absurd h List.not_mem_nil⟩)
    fun _ _ _ _ hc hstep => hc.add hstep

/-- A check for stability that succeeds gives the catalog back, and it is stable. -/
theorem checkStable_eq_ok {catalog catalog' : Catalog} (h : catalog.checkStable = .ok catalog') :
    catalog' = catalog ∧ ∀ rule ∈ catalog.rules, rule.name ∉ catalog.functionSymbols := by
  rw [checkStable] at h
  split at h
  · cases h
  · rename_i hnone
    cases h
    refine ⟨rfl, ?_⟩
    intro rule hrule hname
    exact List.find?_eq_none.1 hnone rule hrule (List.contains_iff_mem.2 hname)

/-- A catalog has one rule per operator, in their order. -/
theorem rules_of_ofSpecs {specs : List Spec} {catalog : Catalog} (h : ofSpecs specs = .ok catalog) :
    catalog.rules = specs.map Rule.mk := by
  obtain ⟨c, hrun, hcheck⟩ := bind_eq_ok.1 h
  rw [(checkStable_eq_ok hcheck).1]
  exact rules_foldlM_add hrun

/-- A catalog that is built is valid. -/
theorem valid_of_ofSpecs {specs : List Spec} {catalog : Catalog} (h : ofSpecs specs = .ok catalog) :
    catalog.Valid := by
  obtain ⟨c, hrun, hcheck⟩ := bind_eq_ok.1 h
  obtain ⟨rfl, hstable⟩ := checkStable_eq_ok hcheck
  exact ⟨coherent_foldlM_add hrun, hstable⟩

/-- The standard operators have a catalog. -/
theorem exists_ofTable_standard : ∃ catalog, ofTable Table.standard = .ok catalog := by
  have h : (ofTable Table.standard).toOption.isSome := by decide +kernel
  rcases hcatalog : ofTable Table.standard with diagnostic | catalog
  · rw [hcatalog] at h
    cases h
  · exact ⟨catalog, rfl⟩

/-- In a valid catalog, no rule has the symbol of a function as its name. -/
theorem Valid.name_ne_symbol {catalog : Catalog} (hc : catalog.Valid) {rule other : Rule}
    (hrule : rule ∈ catalog.rules) (hother : other ∈ catalog.rules)
    (hfunction : other.category = .function) : rule.name ≠ other.symbol := by
  intro heq
  refine hc.stable rule hrule (List.mem_map.2 ⟨other, List.mem_filter.2 ⟨hother, ?_⟩, heq.symm⟩)
  exact beq_iff_eq.2 hfunction

/-! ## Lookup -/

/-- A node without a symbol has no rule. -/
theorem find_of_symbol?_eq_none {catalog : Catalog} {n : Node} (h : n.symbol? = none) :
    catalog.find n = .ok none := by
  rw [find, h]

/-- The look-up of a node that stands for a text. -/
theorem find_of_symbol?_eq_text {catalog : Catalog} {n : Node} {symbol : String}
    (h : n.symbol? = some (.text symbol)) :
    catalog.find n =
      .ok ((catalog.index.lookup (n.nodeType, symbol)).filter fun rule => rule.accepts n) := by
  rw [find, h]
  rfl

/-- The look-up finds the rule that accepts a node. -/
theorem find_eq_some_iff {catalog : Catalog} (hc : catalog.Coherent) {n : Node} {rule : Rule} :
    catalog.find n = .ok (some rule) ↔ rule ∈ catalog.rules ∧ rule.accepts n = true := by
  constructor
  · intro h
    rw [find] at h
    split at h
    · cases h
    · rename_i s hs
      split at h
      · obtain ⟨hbind, haccepts⟩ := Option.filter_eq_some_iff.1 (Except.ok.inj h)
        obtain ⟨symbol, _, hlookup⟩ := Option.bind_eq_some_iff.1 hbind
        exact ⟨((hc _ _).1 hlookup).1, haccepts⟩
      · cases h
  · rintro ⟨hrule, haccepts⟩
    obtain ⟨htype, hsymbol⟩ := Rule.accepts_iff.1 haccepts
    have hlookup : catalog.index.lookup (n.nodeType, rule.symbol) = some rule :=
      (hc _ _).2 ⟨hrule, Rule.mem_keys.2 ⟨htype, rfl⟩⟩
    rw [find_of_symbol?_eq_text hsymbol, hlookup, Option.filter_some, if_pos haccepts]

/-- One rule at most accepts a node. -/
theorem Coherent.eq_of_accepts {catalog : Catalog} (hc : catalog.Coherent) {n : Node}
    {rule other : Rule} (hrule : rule ∈ catalog.rules) (haccepts : rule.accepts n = true)
    (hother : other ∈ catalog.rules) (haccepts' : other.accepts n = true) : other = rule := by
  have hfind := (find_eq_some_iff hc).2 ⟨hrule, haccepts⟩
  rw [(find_eq_some_iff hc).2 ⟨hother, haccepts'⟩] at hfind
  exact Option.some.inj (Except.ok.inj hfind)

/-- A node has rules if one accepts it. -/
theorem matching_ne_nil_iff {catalog : Catalog} {n : Node} :
    catalog.matching n ≠ [] ↔ ∃ rule ∈ catalog.rules, rule.accepts n = true := by
  simp [matching]

/-- No rule accepts a node, among those that can be looked up, if the look-up finds none. -/
theorem matching_eq_nil_iff {catalog : Catalog} (hc : catalog.Coherent) {n : Node}
    (h : ∃ found, catalog.find n = .ok found) :
    catalog.matching n = [] ↔ catalog.find n = .ok none := by
  obtain ⟨found, hfound⟩ := h
  rw [matching, List.filter_eq_nil_iff, hfound]
  -- A rule that accepts the node is the one that the look-up finds.
  rcases found with _ | rule
  · refine iff_of_true ?_ rfl
    intro rule hrule haccepts
    rw [(find_eq_some_iff hc).2 ⟨hrule, haccepts⟩] at hfound
    cases hfound
  · obtain ⟨hrule, haccepts⟩ := (find_eq_some_iff hc).1 hfound
    exact iff_of_false (fun hnone => hnone rule hrule haccepts) nofun

end Catalog

end TaintWeave
