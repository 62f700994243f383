import Mathlib.Data.List.Permutation
import TaintWeave.Proofs.Config.Documents

/-!
# Validation of documents

A document should either give settings of the right types or be refused with an error of the
configuration. The check of the exports is weaker than that: it goes through the parts of a value,
whatever value that is. Those that have no parts stop it with a fault, and an object, which has its
keys as parts, passes for a list of names.

* `Config.WellTyped`: settings of the right types; `WellTyped.of_overrides` if they come from values
  that may stand under their keys.
* `Config.Validates`: what the loading of a document should come to.
* `Config.validates_iff`: it comes to that unless one of the two (`Partless`, `Keyed`) happens, and
  what it comes to otherwise.
-/

namespace TaintWeave.Config

variable {base c : Config} {members : Members Json} {key : String} {value : Json}

/-! ## Types of settings -/

/-- Settings of the right types: texts, names, truth values. -/
structure WellTyped (c : Config) : Prop where
  /-- The module of the substrate is a text. -/
  substrateModule : isText c.substrateModule = true
  /-- The exports are texts. -/
  exports : c.exports.all isText = true
  /-- The name of the source is a text. -/
  taintName : isText c.taintName = true
  /-- Recording is on or off. -/
  recordSinks : isBoolean c.recordSinks = true
  /-- Debugging is on or off. -/
  debug : isBoolean c.debug = true

/-- Settings have the right types if each of them may stand under its key. -/
theorem wellTyped_iff : c.WellTyped ↔
    ∀ key ∈ keys, ∀ value, Members.get? key c.fields = some value → fits key value = true := by
  have hfields : (∀ key ∈ keys, ∀ value, Members.get? key c.fields = some value →
      fits key value = true) ↔ isText c.substrateModule = true ∧ c.exports.all isText = true ∧
        isText c.taintName = true ∧ isBoolean c.recordSinks = true ∧ isBoolean c.debug = true := by
    simp only [keys, List.forall_mem_cons, fields, Members.get?, reduceIte, Option.some.injEq,
      String.reduceEq, forall_eq', List.not_mem_nil, false_implies, implies_true, and_true]
    rfl
  rw [hfields]
  constructor
  · rintro ⟨hmodule, hexports, hname, hsinks, hdebug⟩
    exact ⟨hmodule, hexports, hname, hsinks, hdebug⟩
  · rintro ⟨hmodule, hexports, hname, hsinks, hdebug⟩
    exact ⟨hmodule, hexports, hname, hsinks, hdebug⟩

/-- What is taken of a value that may stand under a key may stand there itself. -/
theorem fits_of_taken {v : Json} (h : fits key value = true) (htaken : taken key value = some v) :
    fits key v = true := by
  by_cases hkey : key = "exports"
  · subst hkey
    obtain ⟨names, hnames, htexts⟩ := exists_parts_of_fits h
    rw [taken_exports hnames, Option.some.injEq] at htaken
    subst htaken
    exact htexts
  · rw [taken_of_ne hkey, Option.some.injEq] at htaken
    exact htaken ▸ h

/-- A configuration keeps the right types if it is overridden by values that may stand under their
    keys. -/
theorem WellTyped.of_overrides {given : String → Option Json} (h : base.WellTyped)
    (hoverrides : Overrides given base c)
    (hgiven : ∀ key value, given key = some value → fits key value = true) : c.WellTyped := by
  rw [wellTyped_iff] at h ⊢
  intro key hkey value hvalue
  rw [hoverrides key hkey, Option.or_eq_some_iff] at hvalue
  rcases hvalue with hvalue | ⟨-, hvalue⟩
  · exact hgiven key value hvalue
  · exact h key hkey value hvalue

/-! ## Outcomes -/

/-- The loading of a document gives settings of the right types, with the exports from the list in
    the document or as they were, or it is refused with an error of the configuration. -/
def Validates (base : Config) (members : Members Json) : Prop :=
  (∃ c, base.update (.object members) = .ok c ∧ c.WellTyped ∧
    match Members.get? "exports" members with
    | none => c.exports = base.exports
    | some value => value = .array c.exports) ∨
  ∃ d, base.update (.object members) = .error (.diagnostic d) ∧ d.errorClass = .configFile

/-- A document without unknown keys has exports without parts. -/
def Partless (members : Members Json) : Prop :=
  (∀ key ∈ Members.keys members, key ∈ keys) ∧
  ∃ value, Members.get? "exports" members = some value ∧
    (value = .null ∨ (∃ b, value = .boolean b) ∨ ∃ n, value = .number n)

/-- An acceptable document has an object for the exports. -/
def Keyed (members : Members Json) : Prop :=
  Acceptable members ∧ ∃ inner, Members.get? "exports" members = some (.object inner)

/-- The values without parts. -/
theorem parts_eq_error_iff {fault : Fault} : parts value = .error fault ↔ fault = .wrongType ∧
    (value = .null ∨ (∃ b, value = .boolean b) ∨ ∃ n, value = .number n) := by
  rcases value with _ | b | n | s | items | members <;> simp [parts, eq_comm]

/-- A document stops the loading with a fault if and only if it has no unknown keys, and exports
    without parts. -/
theorem updateMembers_eq_fault_iff {fault : Fault} :
    base.updateMembers members = .error (.fault fault) ↔ fault = .wrongType ∧ Partless members := by
  constructor
  · intro h
    rcases updateMembers_eq_error h with ⟨-, ⟨⟩⟩ | ⟨hknown, key, value, hvalue, h⟩
    rcases h with ⟨⟨⟩, -⟩ | ⟨_, rfl, hparts, ⟨⟩⟩
    obtain ⟨rfl, hscalar⟩ := parts_eq_error_iff.1 hparts
    exact ⟨rfl, hknown, value, hvalue, hscalar⟩
  · rintro ⟨rfl, hknown, value, hvalue, hscalar⟩
    have hparts : parts value = .error .wrongType := parts_eq_error_iff.2 ⟨rfl, hscalar⟩
    rw [updateMembers_eq, checkKeys_eq_ok_iff.2 hknown,
      checkExports_eq_error_iff.2 ⟨value, hvalue, .inl ⟨_, hparts, rfl⟩⟩]
    rfl

/-- All other errors are errors of the configuration. -/
theorem errorClass_of_updateMembers {d : Diagnostic}
    (h : base.updateMembers members = .error (.diagnostic d)) : d.errorClass = .configFile := by
  have hunfit : ∀ key, (unfit key).errorClass = .configFile := fun key => by
    unfold unfit
    split <;> rfl
  rcases updateMembers_eq_error h with ⟨-, ⟨⟩⟩ | ⟨-, key, value, -, ⟨⟨⟩, -⟩ | ⟨_, -, -, ⟨⟩⟩⟩
  · rfl
  · exact hunfit key

/-- Documents that are accepted leave the settings with the right types. -/
theorem WellTyped.updateMembers (hbase : base.WellTyped)
    (hdistinct : (Members.keys members).Nodup) (h : base.updateMembers members = .ok c) :
    c.WellTyped := by
  have hfits := exists_updateMembers_iff.1 ⟨c, h⟩
  refine hbase.of_overrides (overrides_updateMembers hdistinct h) fun key v hv => ?_
  obtain ⟨value, hvalue, htaken⟩ := Option.bind_eq_some_iff.1 hv
  exact fits_of_taken (hfits key value hvalue) htaken

/-- The exports that an accepted document leaves. -/
theorem exports_of_updateMembers (hdistinct : (Members.keys members).Nodup)
    (h : base.updateMembers members = .ok c) :
    match Members.get? "exports" members with
    | none => c.exports = base.exports
    | some value => parts value = .ok c.exports := by
  have hfits := exists_updateMembers_iff.1 ⟨c, h⟩
  have hexports := overrides_updateMembers hdistinct h "exports" (by decide)
  dsimp only at hexports
  rw [get?_exports, get?_exports] at hexports
  rcases hget : Members.get? "exports" members with _ | value
  · rw [hget] at hexports
    simpa using hexports
  · obtain ⟨names, hnames, -⟩ := exists_parts_of_fits (hfits _ _ hget)
    rw [hget, Option.bind_some, taken_exports hnames] at hexports
    dsimp only
    rw [hnames]
    simpa using hexports.symm

/-- An accepted document is validated unless it has an object for the exports. -/
theorem validates_of_ok (hbase : base.WellTyped) (hdistinct : (Members.keys members).Nodup)
    (h : base.updateMembers members = .ok c) : base.Validates members ↔
      ¬∃ inner, Members.get? "exports" members = some (.object inner) := by
  have hfits := exists_updateMembers_iff.1 ⟨c, h⟩
  have hexports := exports_of_updateMembers hdistinct h
  constructor
  · rintro (⟨c', hc', -, hlist⟩ | ⟨d, hd, -⟩) ⟨inner, hinner⟩
    · rw [hinner] at hlist
      cases hlist
    · exact ok_ne_error (h.symm.trans hd)
  · intro hobject
    refine .inl ⟨c, h, hbase.updateMembers hdistinct h, ?_⟩
    rcases hget : Members.get? "exports" members with _ | value
    · rw [hget] at hexports
      exact hexports
    · rw [hget] at hexports
      have hnames := hfits _ _ hget
      -- Of the values with parts, a text is refused and an object is excluded.
      rcases value with _ | b | n | s | items | inner
      case array =>
        cases hexports
        rfl
      case object => exact absurd ⟨inner, hget⟩ hobject
      all_goals cases hnames

/-- Loading validates a document on top of settings of the right types if and only if the document
    neither has exports without parts nor is acceptable with an object for the exports. In the first
    case, and in no other, it stops with a fault, and this is about a wrong type. Errors of other
    kinds are errors of the configuration, and settings that it does give have the right types. -/
theorem validates_iff (hbase : base.WellTyped) (hdistinct : (Members.keys members).Nodup) :
    (base.Validates members ↔ ¬Partless members ∧ ¬Keyed members) ∧
    (∀ fault, base.update (.object members) = .error (.fault fault) ↔
      fault = .wrongType ∧ Partless members) ∧
    (∀ d, base.update (.object members) = .error (.diagnostic d) → d.errorClass = .configFile) ∧
    ((∃ c, base.update (.object members) = .ok c) ↔ Acceptable members) ∧
    ∀ c, base.update (.object members) = .ok c → c.WellTyped := by
  refine ⟨?_, fun fault => updateMembers_eq_fault_iff, fun d => errorClass_of_updateMembers,
    exists_updateMembers_iff, fun c => hbase.updateMembers hdistinct⟩
  have haccepted : Acceptable members → ∃ c, base.updateMembers members = .ok c :=
    exists_updateMembers_iff.2
  have hpartless : Partless members → base.updateMembers members = .error (.fault .wrongType) :=
    fun h => updateMembers_eq_fault_iff.2 ⟨rfl, h⟩
  rcases hrun : base.updateMembers members with (d | fault) | c
  · rw [hrun] at haccepted hpartless
    refine iff_of_true (.inr ⟨d, hrun, errorClass_of_updateMembers hrun⟩)
      ⟨fun h => (nomatch hpartless h), fun h => ?_⟩
    obtain ⟨c, ⟨⟩⟩ := haccepted h.1
  · obtain ⟨rfl, h⟩ := updateMembers_eq_fault_iff.1 hrun
    refine iff_of_false ?_ fun hslips => hslips.1 h
    rintro (⟨c, hc, -⟩ | ⟨d, hd, -⟩)
    · exact ok_ne_error (hc.symm.trans hrun)
    · cases hd.symm.trans hrun
  · rw [validates_of_ok hbase hdistinct hrun]
    rw [hrun] at hpartless
    constructor
    · exact fun hobject => ⟨fun h => (nomatch hpartless h), fun h => hobject h.2⟩
    · exact fun hslips hobject => hslips.2 ⟨exists_updateMembers_iff.1 ⟨c, hrun⟩, hobject⟩

/-- A document that names a mock and switches debugging on is validated. -/
theorem validates_iff_named :
    Validates {} [("exports", .array [.text "__not__"]), ("debug", .boolean true)] := by
  have hbase : WellTyped {} := ⟨rfl, rfl, rfl, rfl, rfl⟩
  refine (validates_iff hbase (by decide)).1.2 ⟨?_, ?_⟩
  · rintro ⟨-, value, hvalue, rfl | ⟨b, rfl⟩ | ⟨n, rfl⟩⟩ <;> simp [Members.get?] at hvalue
  · rintro ⟨-, inner, hinner⟩
    simp [Members.get?] at hinner

/-- Documents with a null for the exports, and with an object for them, are not validated. -/
theorem not_validates_unchecked_exports : ¬Validates {} [("exports", .null)] ∧
    ¬Validates {} [("exports", .object [("__plus__", .null)])] := by
  have hnull : update {} (.object [("exports", .null)]) = .error (.fault .wrongType) := by cbv
  have hobject : update {} (.object [("exports", .object [("__plus__", .null)])]) =
      .ok { exports := [.text "__plus__"] } := by cbv
  constructor
  · rintro (⟨c, hc, -⟩ | ⟨d, hd, -⟩)
    · exact ok_ne_error (hc.symm.trans hnull)
    · cases hd.symm.trans hnull
  · rintro (⟨c, -, -, hlist⟩ | ⟨d, hd, -⟩)
    · cases hlist
    · exact ok_ne_error (hobject.symm.trans hd)

end TaintWeave.Config
