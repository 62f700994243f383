import TaintWeave.Proofs.Operator.Construction

/-!
# Distinct operators

What the construction of a table ensures: symbols are distinct and so are replacement names, these
are identifiers, and there is a native behind every operator. Which natives there are is left open;
those of the language are a case.

* `Table.Valid`: these four properties.
* `Table.valid_of_construct`, `Table.valid_of_ofEntries`: a table that is built has them.
* `Table.construct_of_wellFormed`: operators that have them are built into a table, and so is every
  part of them (`Table.WellFormed.of_perm_append`).
* `Table.Valid.find?_symbol`: in such a table an operator is found by its symbol.
-/

namespace TaintWeave

namespace Table

variable {natives : String → Option Native} {hasNative : String → Bool}
  {entries : List (Entry Value)} {table : Table}

/-- What the construction of a table ensures, with natives under names. -/
structure Valid (table : Table) (natives : String → Option Native := Native.ofName?) : Prop where
  symbols : (table.specs.map Entry.symbol).Nodup
  replacements : (table.specs.map Entry.replacement).Nodup
  identifiers : ∀ spec ∈ table.specs, Text.isIdentifier spec.replacement.toList = true
  natives : ∀ spec ∈ table.specs, ∃ native, natives spec.native = some native

/-- A table is valid if its operators are well-formed with the natives that there are. -/
theorem valid_iff :
    table.Valid natives ↔ WellFormed (fun s => (natives s).isSome) table.specs := by
  constructor
  · rintro ⟨hsymbols, hreplacements, hidentifiers, hnatives⟩
    exact ⟨hsymbols, hreplacements, hidentifiers, fun spec hspec =>
      Option.isSome_iff_exists.2 (hnatives spec hspec)⟩
  · rintro ⟨hsymbols, hreplacements, hidentifiers, hnatives⟩
    exact ⟨hsymbols, hreplacements, hidentifiers, fun spec hspec =>
      Option.isSome_iff_exists.1 (hnatives spec hspec)⟩

/-- The operators of a table that is built are well-formed. -/
theorem wellFormed_of_construct (h : construct hasNative entries = .ok table) :
    WellFormed hasNative table.specs :=
  (construct_eq_ok_iff.1 h).2

/-- A table that is built is valid. -/
theorem valid_of_construct (h : construct (fun s => (natives s).isSome) entries = .ok table) :
    table.Valid natives :=
  valid_iff.2 (wellFormed_of_construct h)

/-- A table that is built with the natives of the language is valid. -/
theorem valid_of_ofEntries (h : ofEntries entries = .ok table) : table.Valid :=
  valid_of_construct (ofEntries_eq_construct entries ▸ h)

/-- Well-formed operators pass the checks. -/
theorem construct_of_wellFormed {specs : List Spec} (h : WellFormed hasNative specs) :
    construct hasNative (specs.map Spec.toEntry) = .ok ⟨specs⟩ :=
  construct_eq_ok_iff.2 ⟨rfl, h⟩

/-- A part of operators that are well-formed is well-formed, in any order. -/
theorem WellFormed.of_perm_append {specs part rest : List Spec} (h : WellFormed hasNative specs)
    (hperm : (part ++ rest).Perm specs) : WellFormed hasNative part := by
  have hpart : ∀ spec ∈ part, spec ∈ specs := fun spec hspec =>
    hperm.subset (List.mem_append_left rest hspec)
  have hnodup : ∀ f : Spec → String, (specs.map f).Nodup → (part.map f).Nodup := fun f hf => by
    rw [← (hperm.map f).nodup_iff, List.map_append] at hf
    exact (List.nodup_append.1 hf).1
  exact ⟨hnodup _ h.symbols, hnodup _ h.replacements, fun spec hspec => h.identifiers spec
    (hpart spec hspec), fun spec hspec => h.natives spec (hpart spec hspec)⟩

/-- The standard operators pass the checks. -/
theorem ofEntries_standard : ofEntries (standard.specs.map Spec.toEntry) = .ok standard :=
  toOption_eq_some_iff.1 (by decide +kernel)

/-- In a valid table, the search for the symbol of an operator finds that operator. -/
theorem Valid.find?_symbol (h : table.Valid natives) {spec : Spec}
    (hspec : spec ∈ table.specs) :
    (table.specs.find? fun s => s.symbol == spec.symbol) = some spec :=
  find?_eq_some_of_nodup h.symbols hspec

end Table

end TaintWeave
