import TaintWeave.Proofs.Catalog.Coherence

/-!
# Which catalogs are built

A catalog is built if no key is claimed twice and no replacement name is the symbol of a function.
Neither depends on the order of the operators, and both pass on to a part of the operators: so
whenever operators have a catalog, they have one in any other order, and so has every part of them.
What two such catalogs find depends on their rules alone, and not on the order of these.

* `Catalog.ofSpecs_eq_ok_iff`: when operators have a catalog, and which.
* `Catalog.exists_ofSpecs_of_perm_append`: the catalog of a part of the operators.
* `Catalog.find_eq_find`: catalogs with the same rules find the same.
-/

namespace TaintWeave.Catalog

/-- The keys that the rules of operators claim, one after the other. -/
def claims (specs : List Spec) : List RuleKey := specs.flatMap fun spec => (Rule.mk spec).keys

/-- The rules of operators under the keys that they claim. -/
def claimed (specs : List Spec) : List (RuleKey × Rule) :=
  specs.flatMap fun spec => (Rule.mk spec).keys.map fun key => (key, ⟨spec⟩)

theorem map_fst_claimed (specs : List Spec) : (claimed specs).map Prod.fst = claims specs := by
  simp [claimed, claims, List.map_flatMap, Function.comp_def]

/-- No replacement name is the symbol of a function. -/
def Stable (specs : List Spec) : Prop :=
  ∀ spec ∈ specs, ∀ other ∈ specs, other.category = .function → spec.replacement ≠ other.symbol

/-! ## Construction -/

/-- A rule is put into an index under a key that is free. -/
theorem addKey_eq_ok_iff {rule : Rule} {index index' : List (RuleKey × Rule)} {key : RuleKey} :
    addKey rule index key = .ok index' ↔
      key ∉ index.map Prod.fst ∧ index' = index ++ [(key, rule)] := by
  have hfree : index.lookup key = none ↔ key ∉ index.map Prod.fst := by
    rw [List.lookup_eq_none_iff, List.mem_map, not_exists]
    refine forall_congr' fun m => ?_
    rw [bne_iff_ne, not_and, ne_comm]
  rw [addKey]
  cases hlookup : index.lookup key with
  | some first =>
    refine iff_of_false (by simp) fun h => ?_
    rw [hfree.2 h.1] at hlookup
    cases hlookup
  | none =>
    rw [Except.ok.injEq, and_iff_right (hfree.1 hlookup), eq_comm]

/-- Rules are put into an index under keys that are free and different. -/
theorem addAll_eq_ok_iff {index index' more : List (RuleKey × Rule)}
    (h : (index.map Prod.fst).Nodup) :
    more.foldlM (fun index m => addKey m.2 index m.1) index = .ok index' ↔
      ((index ++ more).map Prod.fst).Nodup ∧ index' = index ++ more := by
  induction more generalizing index with
  | nil => simp [h, pure, Except.pure, eq_comm]
  | cons m rest ih =>
    have hnodup : m.1 ∉ index.map Prod.fst → ((index ++ [m]).map Prod.fst).Nodup := by
      intro hkey
      rw [List.map_append, List.nodup_append]
      refine ⟨h, by simp, fun a ha b hb e => hkey ?_⟩
      rwa [← List.mem_singleton.1 hb, ← e]
    rw [List.foldlM_cons, bind_eq_ok, List.append_cons]
    constructor
    · rintro ⟨next, hstep, hrest⟩
      obtain ⟨hkey, rfl⟩ := addKey_eq_ok_iff.1 hstep
      exact (ih (hnodup hkey)).1 hrest
    · rintro ⟨hall, hindex⟩
      have hkey : m.1 ∉ index.map Prod.fst := by
        rw [List.append_assoc, List.map_append, List.nodup_append] at hall
        exact fun hmem => hall.2.2 m.1 hmem m.1 List.mem_cons_self rfl
      exact ⟨_, addKey_eq_ok_iff.2 ⟨hkey, rfl⟩, (ih (hnodup hkey)).2 ⟨hall, hindex⟩⟩

/-- Operators are added by putting their rules into the index, one after the other. -/
theorem foldlM_add_eq (specs : List Spec) (catalog : Catalog) :
    specs.foldlM add catalog =
      (⟨catalog.rules ++ specs.map Rule.mk, ·⟩) <$>
        (claimed specs).foldlM (fun index m => addKey m.2 index m.1) catalog.index := by
  induction specs generalizing catalog with
  | nil =>
    rw [List.map_nil, List.append_nil]
    rfl
  | cons spec rest ih =>
    have hclaimed : claimed (spec :: rest) =
        ((Rule.mk spec).keys.map fun key => (key, ⟨spec⟩)) ++ claimed rest := List.flatMap_cons
    rw [List.foldlM_cons, add, hclaimed, List.foldlM_append, List.foldlM_map]
    rcases (Rule.mk spec).keys.foldlM (addKey ⟨spec⟩) catalog.index with diagnostic | index
    · rfl
    · have hrest := ih ⟨catalog.rules ++ [⟨spec⟩], index⟩
      rw [List.append_assoc] at hrest
      exact hrest

/-- The symbols of functions among the rules of operators. -/
theorem mem_functionSymbols {specs : List Spec} {index : List (RuleKey × Rule)} {symbol : String} :
    symbol ∈ (Catalog.mk (specs.map Rule.mk) index).functionSymbols ↔
      ∃ spec ∈ specs, spec.category = .function ∧ spec.symbol = symbol := by
  simp only [functionSymbols, List.mem_map, List.mem_filter, beq_iff_eq]
  constructor
  · rintro ⟨rule, ⟨⟨spec, hspec, rfl⟩, hfunction⟩, hsymbol⟩
    exact ⟨spec, hspec, hfunction, hsymbol⟩
  · rintro ⟨spec, hspec, hfunction, hsymbol⟩
    exact ⟨⟨spec⟩, ⟨⟨spec, hspec, rfl⟩, hfunction⟩, hsymbol⟩

/-- A check for stability succeeds if no name is the symbol of a function. -/
theorem checkStable_eq_ok_iff {specs : List Spec} {index : List (RuleKey × Rule)}
    {catalog : Catalog} :
    checkStable ⟨specs.map Rule.mk, index⟩ = .ok catalog ↔
      Stable specs ∧ catalog = ⟨specs.map Rule.mk, index⟩ := by
  constructor
  · intro h
    obtain ⟨rfl, hstable⟩ := checkStable_eq_ok h
    refine ⟨fun spec hspec other hother hfunction hname => ?_, rfl⟩
    refine hstable ⟨spec⟩ (List.mem_map_of_mem hspec) (mem_functionSymbols.2 ?_)
    exact ⟨other, hother, hfunction, hname.symm⟩
  · rintro ⟨hstable, rfl⟩
    rw [checkStable]
    split
    · rename_i rule hfind
      obtain ⟨spec, hspec, rfl⟩ := List.mem_map.1 (List.mem_of_find?_eq_some hfind)
      have hname := List.find?_some hfind
      rw [List.contains_iff_mem, mem_functionSymbols] at hname
      obtain ⟨other, hother, hfunction, hsymbol⟩ := hname
      exact absurd hsymbol.symm (hstable spec hspec other hother hfunction)
    · rfl

/-- Operators have a catalog if no key is claimed twice and no name is the symbol of a function. -/
theorem ofSpecs_eq_ok_iff {specs : List Spec} {catalog : Catalog} :
    ofSpecs specs = .ok catalog ↔
      (claims specs).Nodup ∧ Stable specs ∧ catalog = ⟨specs.map Rule.mk, claimed specs⟩ := by
  have hempty : (([] : List (RuleKey × Rule)).map Prod.fst).Nodup := List.nodup_nil
  rw [ofSpecs, foldlM_add_eq, bind_eq_ok, ← map_fst_claimed]
  constructor
  · rintro ⟨c, hadd, hcheck⟩
    obtain ⟨index, hindex, rfl⟩ := map_eq_ok.1 hadd
    obtain ⟨hkeys, rfl⟩ := (addAll_eq_ok_iff hempty).1 hindex
    exact ⟨hkeys, checkStable_eq_ok_iff.1 hcheck⟩
  · rintro ⟨hkeys, hcheck⟩
    refine ⟨_, map_eq_ok.2 ⟨_, (addAll_eq_ok_iff hempty).2 ⟨hkeys, rfl⟩, rfl⟩, ?_⟩
    exact checkStable_eq_ok_iff.2 hcheck

/-- A part of operators that have a catalog has one too, in any order. -/
theorem exists_ofSpecs_of_perm_append {specs part rest : List Spec} {catalog : Catalog}
    (hcatalog : ofSpecs specs = .ok catalog) (h : (part ++ rest).Perm specs) :
    ∃ c, ofSpecs part = .ok c := by
  obtain ⟨hclaims, hstable, -⟩ := ofSpecs_eq_ok_iff.1 hcatalog
  have hpart : ∀ spec ∈ part, spec ∈ specs := fun spec hspec =>
    h.subset (List.mem_append_left rest hspec)
  refine ⟨_, ofSpecs_eq_ok_iff.2 ⟨?_, fun spec hspec other hother => ?_, rfl⟩⟩
  · rw [claims, ← (h.flatMap_right _).nodup_iff, List.flatMap_append] at hclaims
    exact (List.nodup_append.1 hclaims).1
  · exact hstable spec (hpart spec hspec) other (hpart other hother)

/-! ## Lookup -/

/-- Whether a node can be looked up does not depend on the catalog. -/
theorem exists_find_iff {catalog : Catalog} {n : Node} :
    (∃ found, catalog.find n = .ok found) ↔ ∀ s, n.symbol? = some s → slotHasLookup s = true := by
  rw [find]
  cases hsymbol : n.symbol? with
  | none => simp
  | some s =>
    by_cases hs : slotHasLookup s = true
    · simp [hs]
    · simp [hs]

/-- Catalogs with the same rules find the same. -/
theorem find_eq_find {catalog other : Catalog} (hc : catalog.Coherent) (ho : other.Coherent)
    (hrules : ∀ rule, rule ∈ catalog.rules ↔ rule ∈ other.rules) (n : Node) :
    catalog.find n = other.find n := by
  have hlookup : ∀ key, catalog.index.lookup key = other.index.lookup key := by
    intro key
    ext rule
    rw [hc key rule, ho key rule, hrules]
  simp only [find, hlookup]

end TaintWeave.Catalog
