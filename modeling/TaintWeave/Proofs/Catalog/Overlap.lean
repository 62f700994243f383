import Mathlib.Data.List.Nodup
import Mathlib.Data.List.Pairwise
import TaintWeave.Proofs.Catalog.Construction

/-!
# Overlapping rules

Two operators overlap if a node may stand for both: they have one symbol, and a type of nodes in
common. Operators have no catalog if two of them overlap, or if a replacement name is the symbol of
a function, and there is no other reason. In a catalog, then, the rules that accept a node are one
or none, and looking the node up finds them.

* `Catalog.nodup_claims_iff`: no key is claimed twice if no two operators overlap.
* `Catalog.ofEntries_toEntry`: a catalog of operators that no table has checked.
* `Catalog.ofEntries_eq_error_iff_overlap`: when there is no catalog, and what is found in one.
-/

namespace TaintWeave

/-- Two categories share a type of nodes: they are one, or a binary operator meets an equality. -/
def Category.SharesNodes (c d : Category) : Prop :=
  c = d ∨ c = .binary ∧ d = .equality ∨ c = .equality ∧ d = .binary

/-- Two categories that share a type of nodes have one in common. -/
theorem Category.sharesNodes_iff {c d : Category} :
    c.SharesNodes d ↔ ∃ t, t ∈ c.nodeTypes ∧ t ∈ d.nodeTypes := by
  cases c <;> cases d <;> simp [SharesNodes, nodeTypes]

/-- Two operators overlap: they have one symbol and share a type of nodes. -/
def Spec.Overlaps (first second : Spec) : Prop :=
  first.symbol = second.symbol ∧ first.category.SharesNodes second.category

/-- Operators overlap if their rules claim a key in common. -/
theorem Spec.overlaps_iff {first second : Spec} :
    first.Overlaps second ↔ ¬List.Disjoint (Rule.mk first).keys (Rule.mk second).keys := by
  have hcommon : ¬List.Disjoint (Rule.mk first).keys (Rule.mk second).keys ↔
      ∃ key, key ∈ (Rule.mk first).keys ∧ key ∈ (Rule.mk second).keys := by
    simp [List.Disjoint]
  rw [hcommon, Overlaps, Category.sharesNodes_iff]
  constructor
  · rintro ⟨hsymbol, t, hfirst, hsecond⟩
    exact ⟨(t, first.symbol), Rule.mem_keys.2 ⟨hfirst, rfl⟩, Rule.mem_keys.2 ⟨hsecond, hsymbol⟩⟩
  · rintro ⟨key, hfirst, hsecond⟩
    obtain ⟨hfirst, hsymbol⟩ := Rule.mem_keys.1 hfirst
    obtain ⟨hsecond, hsymbol'⟩ := Rule.mem_keys.1 hsecond
    exact ⟨hsymbol.symm.trans hsymbol', key.1, hfirst, hsecond⟩

/-- Operators overlap each other. -/
theorem Spec.Overlaps.symm {first second : Spec} (h : first.Overlaps second) :
    second.Overlaps first := by
  rw [Spec.overlaps_iff, List.disjoint_comm, ← Spec.overlaps_iff]
  exact h

/-- A rule claims different keys. -/
theorem Rule.nodup_keys (rule : Rule) : rule.keys.Nodup := by
  have htypes : rule.category.nodeTypes.Nodup := by cases rule.category <;> decide
  exact htypes.map fun s t h => congrArg Prod.fst h

namespace Catalog

/-- No key is claimed twice if no two operators overlap. -/
theorem nodup_claims_iff (specs : List Spec) :
    (claims specs).Nodup ↔ specs.Pairwise fun first second => ¬first.Overlaps second := by
  have hdisjoint : (specs.Pairwise fun first second => ¬first.Overlaps second) ↔
      specs.Pairwise fun first second =>
        List.Disjoint (Rule.mk first).keys (Rule.mk second).keys :=
    List.Pairwise.iff fun first second => by rw [Spec.overlaps_iff, not_not]
  rw [hdisjoint, claims, List.nodup_flatMap]
  exact and_iff_right fun spec _ => Rule.nodup_keys ⟨spec⟩

/-- A key is claimed twice if operators at two places overlap, whichever comes first. -/
theorem not_nodup_claims_iff (specs : List Spec) :
    ¬(claims specs).Nodup ↔
      ∃ i j : Fin specs.length, i ≠ j ∧ (specs.get i).Overlaps (specs.get j) := by
  rw [nodup_claims_iff, List.pairwise_iff_get]
  push Not
  constructor
  · rintro ⟨i, j, hlt, h⟩
    exact ⟨i, j, Fin.ne_of_lt hlt, h⟩
  · rintro ⟨i, j, hne, h⟩
    rcases Fin.lt_or_lt_of_ne hne with hlt | hgt
    · exact ⟨i, j, hlt, h⟩
    · exact ⟨j, i, hgt, h.symm⟩

/-! ## Operators that no table has checked -/

/-- The rule of an operator is added whether its category has been checked or not. -/
theorem addEntry_toEntry (catalog : Catalog) (spec : Spec) :
    catalog.addEntry spec.toEntry = (catalog.add spec).mapError .diagnostic := rfl

/-- Operators have the catalog that they have when their categories are checked first. -/
theorem ofEntries_toEntry (specs : List Spec) :
    ofEntries (specs.map Spec.toEntry) = (ofSpecs specs).mapError .diagnostic := by
  have hadd : ∀ catalog : Catalog, (specs.map Spec.toEntry).foldlM addEntry catalog =
      (specs.foldlM add catalog).mapError .diagnostic := by
    induction specs with
    | nil => exact fun _ => rfl
    | cons spec rest ih =>
      intro catalog
      rw [List.map_cons, List.foldlM_cons, List.foldlM_cons, addEntry_toEntry]
      rcases catalog.add spec with diagnostic | next
      · rfl
      · exact ih next
  rw [ofEntries, ofSpecs, hadd]
  rcases specs.foldlM add empty with diagnostic | catalog
  · rfl
  · rfl

/-! ## Refused operators -/

/-- Operators that have no catalog are refused because of rules that overlap. -/
theorem errorClass_of_ofSpecs {specs : List Spec} {diagnostic : Diagnostic}
    (h : ofSpecs specs = .error diagnostic) : diagnostic.errorClass = .overlappingRule := by
  rcases bind_eq_error.1 h with hadd | ⟨catalog, -, hcheck⟩
  · -- The first key that is taken stops the construction.
    obtain ⟨catalog, spec, -, hspec⟩ := exists_of_foldlM_eq_error hadd
    rcases bind_eq_error.1 hspec with hkeys | ⟨_, _, ⟨⟩⟩
    obtain ⟨index, key, -, hkey⟩ := exists_of_foldlM_eq_error hkeys
    rw [addKey] at hkey
    split at hkey
    · cases hkey
      rfl
    · cases hkey
  · rw [checkStable] at hcheck
    split at hcheck
    · cases hcheck
      rfl
    · cases hcheck

/-- Operators are refused if no catalog of them is built. -/
theorem exists_ofSpecs_eq_error_iff {specs : List Spec} :
    (∃ diagnostic, ofSpecs specs = .error diagnostic) ↔
      ¬(claims specs).Nodup ∨ ¬Stable specs := by
  rw [← not_and_or]
  rcases hspecs : ofSpecs specs with diagnostic | catalog
  · refine iff_of_true ⟨diagnostic, rfl⟩ fun ⟨hclaims, hstable⟩ => ?_
    rw [ofSpecs_eq_ok_iff.2 ⟨hclaims, hstable, rfl⟩] at hspecs
    cases hspecs
  · obtain ⟨hclaims, hstable, -⟩ := ofSpecs_eq_ok_iff.1 hspecs
    exact iff_of_false nofun (not_not.2 ⟨hclaims, hstable⟩)

/-! ## The rules of a node -/

/-- Operators that do not overlap have different rules: each overlaps itself. -/
theorem nodup_map_rule {specs : List Spec} (h : (claims specs).Nodup) :
    (specs.map Rule.mk).Nodup := by
  refine List.Nodup.map (fun _ _ h => congrArg Rule.spec h) ?_
  refine ((nodup_claims_iff specs).1 h).imp ?_
  rintro first second hoverlaps rfl
  exact hoverlaps ⟨rfl, .inl rfl⟩

variable {catalog : Catalog}

/-- The rules that accept a node are at most the one that the look-up finds. -/
theorem Coherent.matching_eq (hc : catalog.Coherent) (hrules : catalog.rules.Nodup) {n : Node}
    {found : Option Rule} (hfind : catalog.find n = .ok found) :
    catalog.matching n = found.toList := by
  cases found with
  | none => exact (matching_eq_nil_iff hc ⟨_, hfind⟩).2 hfind
  | some rule =>
    obtain ⟨hrule, haccepts⟩ := (find_eq_some_iff hc).1 hfind
    refine List.perm_singleton.1 ?_
    refine (List.perm_ext_iff_of_nodup (hrules.filter _) (List.nodup_singleton rule)).2 ?_
    intro other
    rw [List.mem_filter, List.mem_singleton]
    constructor
    · rintro ⟨hother, haccepts'⟩
      exact hc.eq_of_accepts hrule haccepts hother haccepts'
    · rintro rfl
      exact ⟨hrule, haccepts⟩

/-- Operators, repeated or not, have no catalog if two at different places overlap, or if a
    replacement name is the symbol of a function, and for no other reason. In a catalog, one rule
    at most accepts a node that can be looked up, and the look-up finds that rule or none. -/
theorem ofEntries_eq_error_iff_overlap (specs : List Spec) :
    ((∃ diagnostic, ofEntries (specs.map Spec.toEntry) = .error (.diagnostic diagnostic) ∧
        diagnostic.errorClass = .overlappingRule) ↔
      (∃ i j : Fin specs.length, i ≠ j ∧ (specs.get i).Overlaps (specs.get j)) ∨
        ∃ spec ∈ specs, ∃ other ∈ specs,
          other.category = .function ∧ spec.replacement = other.symbol) ∧
    (∀ failure, ofEntries (specs.map Spec.toEntry) = .error failure →
      ∃ diagnostic, failure = .diagnostic diagnostic ∧
        diagnostic.errorClass = .overlappingRule) ∧
    ∀ catalog, ofEntries (specs.map Spec.toEntry) = .ok catalog →
      ∀ n : Node, (∀ s, n.symbol? = some s → slotHasLookup s = true) →
        (catalog.matching n).length ≤ 1 ∧ catalog.find n = .ok (catalog.matching n).head? := by
  have hstable : (∃ spec ∈ specs, ∃ other ∈ specs,
      other.category = .function ∧ spec.replacement = other.symbol) ↔ ¬Stable specs := by
    simp only [Stable, ne_eq, not_forall, not_not, exists_prop]
  rw [ofEntries_toEntry, ← not_nodup_claims_iff, hstable, ← exists_ofSpecs_eq_error_iff]
  refine ⟨?_, ?_, ?_⟩
  · constructor
    · rintro ⟨diagnostic, h, -⟩
      obtain ⟨found, hspecs, -⟩ := mapError_eq_error.1 h
      exact ⟨found, hspecs⟩
    · rintro ⟨diagnostic, h⟩
      exact ⟨diagnostic, by rw [h]; rfl, errorClass_of_ofSpecs h⟩
  · intro failure h
    obtain ⟨diagnostic, hspecs, rfl⟩ := mapError_eq_error.1 h
    exact ⟨diagnostic, rfl, errorClass_of_ofSpecs hspecs⟩
  · intro catalog h n hlookup
    have hspecs := mapError_eq_ok.1 h
    obtain ⟨hclaims, -, -⟩ := ofSpecs_eq_ok_iff.1 hspecs
    have hrules : catalog.rules.Nodup := rules_of_ofSpecs hspecs ▸ nodup_map_rule hclaims
    obtain ⟨found, hfound⟩ := exists_find_iff.2 hlookup
    rw [(valid_of_ofSpecs hspecs).coherent.matching_eq hrules hfound, hfound]
    cases found with
    | none => exact ⟨Nat.zero_le 1, rfl⟩
    | some rule => exact ⟨Nat.le_refl 1, rfl⟩

end Catalog

end TaintWeave
