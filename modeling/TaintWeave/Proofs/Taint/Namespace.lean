import TaintWeave.Taint.Namespace
import TaintWeave.Proofs.Arrangement
import TaintWeave.Proofs.Catalog.Coherence
import TaintWeave.Proofs.Operator.Distinct

/-!
# Namespaces of tables

The catalog of a table that is built has a namespace, in which every operator has its mock under its
replacement name. This is so whatever natives there are, those of the language being a case.

* `Namespace.build_eq`: the namespace of the catalog of a table, with one mock per operator.
* `Namespace.get_replacement`: the mock under the replacement name of an operator.
* `Namespace.mem_mocks_standard`: what is found among the standard mocks is one of them.
-/

namespace TaintWeave

/-! ## Mocks of a table -/

namespace Table

/-- The mock of an operator under its replacement name, if the operator has a native. -/
def mock? (spec : Spec) (natives : String → Option Native := Native.ofName?) :
    Option (String × Mock) :=
  (natives spec.native).map fun native => (spec.replacement, ⟨spec, native⟩)

/-- The mocks of the operators of a table, in order. -/
def mocks (table : Table) (natives : String → Option Native := Native.ofName?) : Members Mock :=
  table.specs.filterMap fun spec => mock? spec natives

variable {table : Table} {natives : String → Option Native}

/-- The mocks of a valid table are under the replacement names. -/
theorem Valid.keys_mocks (h : table.Valid natives) :
    Members.keys (table.mocks natives) = table.replacements := by
  have hkeys : ∀ spec ∈ table.specs, (mock? spec natives).map Prod.fst =
      some spec.replacement := by
    intro spec hspec
    obtain ⟨native, hnative⟩ := h.natives spec hspec
    rw [mock?, hnative]
    rfl
  rw [Members.keys, mocks, List.map_filterMap, List.filterMap_congr hkeys]
  exact congrFun List.filterMap_eq_map table.specs

/-- The mocks of a valid table are under different names. -/
theorem Valid.nodup_keys_mocks (h : table.Valid natives) :
    (Members.keys (table.mocks natives)).Nodup :=
  h.keys_mocks ▸ h.replacements

end Table

namespace Namespace

variable {table : Table} {catalog : Catalog} {natives : String → Option Native}

/-- The mock of an operator of a valid table can be made. -/
theorem mockOf_eq (htable : table.Valid natives) (hrules : catalog.rules = table.specs.map Rule.mk)
    {spec : Spec} (hspec : spec ∈ table.specs) {native : Native}
    (hnative : natives spec.native = some native) :
    mockOf Category.all catalog ⟨spec⟩ natives = .ok ⟨spec, native⟩ := by
  have hget : catalog.table.get spec.symbol = .ok spec := by
    rw [Catalog.table, hrules, List.map_map, Table.get]
    have hid : (table.specs.map (Rule.spec ∘ Rule.mk)) = table.specs := List.map_id _
    rw [hid, htable.find?_symbol hspec]
  have hcategory : Category.all.contains spec.category = true := by cases spec.category <;> rfl
  unfold mockOf
  rw [show (Rule.mk spec).symbol = spec.symbol from rfl, hget]
  change (if (!Category.all.contains spec.category) = true then _ else _) = _
  rw [hcategory, hnative]
  rfl

/-- The mocks of a table as a namespace. -/
def ofTable (table : Table) (catalog : Catalog)
    (natives : String → Option Native := Native.ofName?) : Namespace :=
  ⟨table.mocks natives, catalog⟩

/-- The catalog of a valid table has a namespace: the mocks of the table. -/
theorem build_eq (htable : table.Valid natives)
    (hrules : catalog.rules = table.specs.map Rule.mk) :
    build catalog Category.all natives = .ok (ofTable table catalog natives) := by
  have hmocks : (catalog.rules.mapM fun rule => do
      return (rule.name, ← mockOf Category.all catalog rule natives) :
        Except Failure (Members Mock)) =
      .ok (catalog.rules.filterMap fun rule => Table.mock? rule.spec natives) := by
    refine mapM_eq_ok fun rule hrule => ?_
    rw [hrules] at hrule
    obtain ⟨spec, hspec, rfl⟩ := List.mem_map.1 hrule
    obtain ⟨native, hnative⟩ := htable.natives spec hspec
    rw [mockOf_eq htable hrules hspec hnative, Table.mock?, hnative]
    exact ⟨_, rfl, rfl⟩
  rw [build, hmocks, hrules, List.filterMap_map]
  -- Putting the mocks under their names loses none, for the names are different.
  change Except.ok (Namespace.mk (Members.ofPairs (table.mocks natives)) catalog) = _
  rw [Members.ofPairs_of_nodup htable.nodup_keys_mocks, ofTable]

/-- The mock under the replacement name of an operator is the mock of that operator. -/
theorem get_replacement (htable : table.Valid natives) {spec : Spec} (hspec : spec ∈ table.specs)
    {native : Native} (hnative : natives spec.native = some native) :
    (ofTable table catalog natives).get spec.replacement = .ok ⟨spec, native⟩ := by
  have hmem : (spec.replacement, ⟨spec, native⟩) ∈ table.mocks natives := by
    refine List.mem_filterMap.2 ⟨spec, hspec, ?_⟩
    rw [Table.mock?, hnative]
    rfl
  rw [get, get?, ofTable, Members.get?_of_mem htable.nodup_keys_mocks hmem]

/-- A mock that is found under a name is there under that name. -/
theorem mem_mocks_of_get {ns : Namespace} {name : String} {mock : Mock}
    (h : ns.get name = .ok mock) : (name, mock) ∈ ns.mocks := by
  rw [get] at h
  split at h
  · rename_i found hfound
    cases h
    exact Members.mem_of_get? hfound
  · cases h

/-- The namespace of the standard operators holds their mocks. -/
theorem mocks_of_build_standard {ns : Namespace}
    (hcatalog : Catalog.ofTable .standard = .ok catalog) (hns : build catalog = .ok ns) :
    ns.mocks = Table.standard.mocks := by
  rw [build_eq (Table.valid_of_ofEntries Table.ofEntries_standard)
    (Catalog.rules_of_ofSpecs hcatalog)] at hns
  cases hns
  rfl

/-- A mock that is found among the standard ones is one of them. -/
theorem mem_mocks_standard {ns : Namespace} (hcatalog : Catalog.ofTable .standard = .ok catalog)
    (hns : build catalog = .ok ns) {name : String} {mock : Mock} (h : ns.get name = .ok mock) :
    (name, mock) ∈ Table.standard.mocks :=
  mocks_of_build_standard hcatalog hns ▸ mem_mocks_of_get h

end Namespace

end TaintWeave
