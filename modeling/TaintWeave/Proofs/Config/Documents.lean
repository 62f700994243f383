import TaintWeave.Config
import TaintWeave.Proofs.Arrangement
import TaintWeave.Proofs.Outcome

/-!
# Settings from documents

A document sets the settings whose keys it has. Whether it is accepted depends on the document
alone: each of its values has to be one for the setting under its key. The checks go through the
document several times, and so they come to the first error in an order of their own.

* `Config.fields`: the settings under their keys; `Config.eq_of_fields`: these are all there is.
* `Config.Overrides`: a configuration is another one overridden by some settings that are given.
* `Config.exists_updateMembers_iff`: which documents are accepted.
* `Config.overrides_updateMembers`: what they override.
* `Config.updateMembers_eq_error`: with which errors all others are refused.
-/

namespace TaintWeave.Config

variable {base c d : Config} {members : Members Json} {key k : String} {value : Json}

/-! ## Settings by their keys -/

/-- The settings under their keys. -/
def fields (c : Config) : Members Json :=
  [("substrate_module", c.substrateModule), ("exports", .array c.exports),
   ("taint_name", c.taintName), ("record_sinks", c.recordSinks), ("debug", c.debug)]

/-- Configurations with the same settings are equal. -/
theorem eq_of_fields (h : ∀ key ∈ keys, Members.get? key c.fields = Members.get? key d.fields) :
    c = d := by
  simp only [keys, List.forall_mem_cons, fields, Members.get?, reduceIte, Option.some.injEq,
    String.reduceEq, Json.array.injEq, List.not_mem_nil, false_implies, implies_true, and_true] at h
  obtain ⟨hmodule, hexports, hname, hsinks, hdebug⟩ := h
  cases c
  cases d
  simp_all

/-- What is set under a key changes this setting and no other. -/
theorem get?_fields_set (hkey : key ∈ keys) (hexports : key ≠ "exports") :
    Members.get? key (c.set k value).fields =
      if k = key then some value else Members.get? key c.fields := by
  simp only [keys, List.mem_cons, List.not_mem_nil, or_false] at hkey
  rcases hkey with rfl | rfl | rfl | rfl | rfl
  case inr.inl => exact absurd rfl hexports
  all_goals
    unfold set fields
    split_ifs <;> simp_all [Members.get?]

/-- The exports are not set in this way. -/
theorem exports_set : (c.set k value).exports = c.exports := by
  unfold set
  split_ifs <;> rfl

/-- Other exports change no other setting. -/
theorem get?_fields_exports (names : List Json) (hexports : key ≠ "exports") :
    Members.get? key { c with exports := names }.fields = Members.get? key c.fields := by
  simp [fields, Members.get?, Ne.symm hexports]

/-- The exports among the settings. -/
theorem get?_exports (c : Config) : Members.get? "exports" c.fields = some (.array c.exports) := by
  simp [fields, Members.get?]

/-- A configuration is another one with some settings overridden by those that are given. -/
def Overrides (given : String → Option Json) (base c : Config) : Prop :=
  ∀ key ∈ keys, Members.get? key c.fields = (given key).or (Members.get? key base.fields)

namespace Overrides

variable {given given' : String → Option Json}

/-- There is one such configuration. -/
theorem unique (h : Overrides given base c) (h' : Overrides given base d) : c = d :=
  eq_of_fields fun key hkey => (h key hkey).trans (h' key hkey).symm

/-- Settings may be overridden in one step or in two, where the later ones win. -/
theorem trans (h : Overrides given base c) (h' : Overrides given' c d) :
    Overrides (fun key => (given' key).or (given key)) base d := by
  intro key hkey
  rw [h' key hkey, h key hkey, Option.or_assoc]

/-- What is given under other keys does not matter. -/
theorem congr (h : Overrides given base c) (heq : ∀ key ∈ keys, given key = given' key) :
    Overrides given' base c := fun key hkey => heq key hkey ▸ h key hkey

end Overrides

/-- What a value sets a setting to: the exports to its parts. -/
def taken (key : String) (value : Json) : Option Json :=
  if key = "exports" then (parts value).toOption.map .array else some value

/-- What is taken of a value for a setting other than the exports. -/
theorem taken_of_ne (hkey : key ≠ "exports") : taken key value = some value := if_neg hkey

/-- What is taken of a value for the exports, if it has parts. -/
theorem taken_exports {names : List Json} (h : parts value = .ok names) :
    taken "exports" value = some (.array names) := by
  rw [taken, if_pos rfl, h]
  rfl

/-! ## Accepted documents -/

/-- Whether a value may stand for the exports. -/
def isNames (value : Json) : Bool := !isText value && (parts value).toOption.any (·.all isText)

/-- Whether a value may stand under a key. -/
def fits (key : String) (value : Json) : Bool :=
  if key = "exports" then isNames value
  else if key = "substrate_module" ∨ key = "taint_name" then isText value
  else if key = "record_sinks" ∨ key = "debug" then isBoolean value
  else false

/-- A value that may stand for the exports has parts, and these are texts. -/
theorem exists_parts_of_fits (h : fits "exports" value = true) :
    ∃ names, parts value = .ok names ∧ names.all isText = true := by
  have hnames : isNames value = true := h
  rw [isNames] at hnames
  rcases hparts : parts value with fault | names
  · rw [hparts] at hnames
    simp [Except.toOption] at hnames
  · rw [hparts] at hnames
    exact ⟨names, rfl, (Bool.and_eq_true_iff.1 hnames).2⟩

/-- A value that may stand under a key stands under the key of a setting. -/
theorem mem_keys_of_fits (h : fits key value = true) : key ∈ keys := by
  unfold fits at h
  split_ifs at h with hexports htext hboolean
  · exact hexports ▸ by decide
  · rcases htext with rfl | rfl <;> decide
  · rcases hboolean with rfl | rfl <;> decide

/-- What is wrong with a value that may not stand under a key. -/
def unfit (key : String) : Diagnostic :=
  if key = "exports" then .configFile "'exports' must be a list of names"
  else .configFile (Text.quote key ++ " must be " ++
    if key = "substrate_module" ∨ key = "taint_name" then "a string" else "true or false")

/-- The keys among some that are not known, in alphabetical order. -/
def unknownKeys (found : List String) : List String :=
  (found.filter fun key => !keys.contains key).eraseDups.mergeSort (· ≤ ·)

/-- A document of which every value may stand under its key. -/
def Acceptable (members : Members Json) : Prop :=
  ∀ key value, Members.get? key members = some value → fits key value = true

/-! ## The checks -/

/-- The check of all keys finds those that are unknown. -/
theorem checkKeys_eq (found : List String) :
    checkKeys found = if ∀ key ∈ found, key ∈ keys then .ok () else
      .error (.diagnostic (.unknownKeys (unknownKeys found) keys)) := by
  have hunknown : (unknownKeys found).isEmpty = true ↔ ∀ key ∈ found, key ∈ keys := by
    rw [List.isEmpty_iff, List.eq_nil_iff_forall_not_mem]
    simp [unknownKeys]
  by_cases h : ∀ key ∈ found, key ∈ keys
  · rw [if_pos h]
    exact if_pos (hunknown.2 h)
  · rw [if_neg h]
    exact if_neg (mt hunknown.1 h)

/-- The check of all keys finds nothing if all of them are known. -/
theorem checkKeys_eq_ok_iff {found : List String} :
    checkKeys found = .ok () ↔ ∀ key ∈ found, key ∈ keys := by
  rw [checkKeys_eq]
  split
  · rename_i h
    exact ⟨fun _ => h, fun _ => rfl⟩
  · rename_i h
    exact ⟨nofun, fun hknown => absurd hknown h⟩

/-- Checks that the value under a key may stand there, if there is one. -/
def checkFits (members : Members Json) (key : String) : Except Failure Unit :=
  match Members.get? key members with
  | none => .ok ()
  | some value => if fits key value then .ok () else .error (.diagnostic (unfit key))

/-- The check of a value finds nothing if it may stand under its key. -/
theorem checkFits_eq_ok_iff :
    checkFits members key = .ok () ↔
      ∀ value, Members.get? key members = some value → fits key value = true := by
  unfold checkFits
  cases Members.get? key members with
  | none => exact ⟨fun _ _ => nofun, fun _ => rfl⟩
  | some value => simp

/-- The check of a value refuses one that may not stand under its key. -/
theorem checkFits_eq_error_iff {e : Failure} :
    checkFits members key = .error e ↔ e = .diagnostic (unfit key) ∧
      ∃ value, Members.get? key members = some value ∧ fits key value = false := by
  unfold checkFits
  cases Members.get? key members with
  | none => exact ⟨nofun, fun ⟨_, _, h, _⟩ => nomatch h⟩
  | some value =>
    dsimp only
    split
    · rename_i hfits
      refine ⟨nofun, ?_⟩
      rintro ⟨-, _, ⟨⟩, hunfit⟩
      rw [hfits] at hunfit
      cases hunfit
    · rename_i hfits
      constructor
      · rintro ⟨⟩
        exact ⟨rfl, value, rfl, Bool.eq_false_iff.2 hfits⟩
      · rintro ⟨rfl, -⟩
        rfl

/-- No exports are found if none are given. -/
theorem checkExports_of_get?_eq_none (h : Members.get? "exports" members = none) :
    checkExports members = .ok none := by
  unfold checkExports
  rw [h]
  rfl

/-- The check of the exports for a value that is given. -/
theorem checkExports_of_get? (h : Members.get? "exports" members = some value) :
    checkExports members = match parts value with
      | .error fault => .error (.fault fault)
      | .ok names =>
        if fits "exports" value then .ok (some names)
        else .error (.diagnostic (unfit "exports")) := by
  unfold checkExports
  rw [h]
  have hfits : fits "exports" value = isNames value := if_pos rfl
  rw [hfits, isNames]
  dsimp only
  rcases parts value with fault | names
  · rfl
  · have hcheck : (if isText value || !names.all isText then
        (.error (.diagnostic (unfit "exports")) : Except Failure (Option (List Json)))
        else .ok (some names)) = if !isText value && names.all isText then .ok (some names)
          else .error (.diagnostic (unfit "exports")) := by
      cases isText value <;> cases names.all isText <;> rfl
    exact hcheck

/-- The exports that are found are the parts of a value that may stand for them. -/
theorem checkExports_eq_ok_iff {exports : Option (List Json)} :
    checkExports members = .ok exports ↔
      (∀ value, Members.get? "exports" members = some value → fits "exports" value = true) ∧
      exports.map Json.array = (Members.get? "exports" members).bind (taken "exports") := by
  rcases hget : Members.get? "exports" members with _ | value
  · rw [checkExports_of_get?_eq_none hget, Except.ok.injEq, eq_comm]
    simp
  · rw [checkExports_of_get? hget, Option.bind_some]
    rcases hparts : parts value with fault | names
    · have hunfit : fits "exports" value = false := by
        rw [fits, if_pos rfl, isNames, hparts]
        exact Bool.and_false _
      simp [hunfit]
    · rw [taken_exports hparts]
      dsimp only
      split
      · rename_i hfits
        rw [Except.ok.injEq, eq_comm]
        simp [hfits]
      · rename_i hfits
        exact ⟨nofun, fun ⟨h, _⟩ => absurd (h value rfl) hfits⟩

/-- The check of the exports refuses a value without parts, and parts that are no names. -/
theorem checkExports_eq_error_iff {e : Failure} :
    checkExports members = .error e ↔ ∃ value, Members.get? "exports" members = some value ∧
      ((∃ fault, parts value = .error fault ∧ e = .fault fault) ∨
       (∃ names, parts value = .ok names ∧ fits "exports" value = false ∧
         e = .diagnostic (unfit "exports"))) := by
  rcases hget : Members.get? "exports" members with _ | value
  · rw [checkExports_of_get?_eq_none hget]
    exact ⟨nofun, fun ⟨_, h, _⟩ => nomatch h⟩
  · rw [checkExports_of_get? hget]
    simp only [Option.some.injEq, exists_eq_left']
    rcases hparts : parts value with fault | names
    · constructor
      · rintro ⟨⟩
        exact .inl ⟨fault, rfl, rfl⟩
      · rintro (⟨_, ⟨⟩, rfl⟩ | ⟨_, ⟨⟩, _⟩)
        rfl
    · dsimp only
      split
      · rename_i hfits
        refine ⟨nofun, ?_⟩
        rintro (⟨_, ⟨⟩, _⟩ | ⟨_, -, hunfit, -⟩)
        rw [hfits] at hunfit
        cases hunfit
      · rename_i hfits
        constructor
        · rintro ⟨⟩
          exact .inr ⟨names, rfl, Bool.eq_false_iff.2 hfits, rfl⟩
        · rintro (⟨_, ⟨⟩, _⟩ | ⟨_, -, -, rfl⟩)
          rfl

/-- The keys of the settings that are checked one after the other, last of all. -/
def plainKeys : List String := ["substrate_module", "taint_name", "record_sinks", "debug"]

/-- A configuration with the members of an object set, and with exports if these are. -/
def assign (base : Config) (members : Members Json) (exports : Option (List Json)) : Config :=
  match exports with
  | none => members.foldl (fun c m => c.set m.1 m.2) base
  | some names => { members.foldl (fun c m => c.set m.1 m.2) base with exports := names }

/-- A document is checked for its keys, its exports and its other settings, and then set. -/
theorem updateMembers_eq : base.updateMembers members = (do
    checkKeys (Members.keys members)
    let exports ← checkExports members
    plainKeys.forM (checkFits members)
    return base.assign members exports) := by
  have hplain : plainKeys.forM (checkFits members) = (do
      checkFits members "substrate_module"
      checkFits members "taint_name"
      checkFits members "record_sinks"
      checkFits members "debug"
      return) := rfl
  unfold updateMembers
  simp only [List.forIn_cons, List.forIn_nil, bind_assoc, pure_bind, hplain]
  rfl

/-- The key of a setting is that of the exports, or is checked among the last. -/
theorem mem_keys_iff : key ∈ keys ↔ key = "exports" ∨ key ∈ plainKeys := by
  simp only [keys, plainKeys, List.mem_cons, List.not_mem_nil, or_false]
  tauto

/-- A document gives a configuration if it is acceptable, with the exports found in it. -/
theorem updateMembers_eq_ok_iff :
    base.updateMembers members = .ok c ↔ Acceptable members ∧ ∃ exports : Option (List Json),
      exports.map Json.array = (Members.get? "exports" members).bind (taken "exports") ∧
      c = base.assign members exports := by
  rw [updateMembers_eq]
  simp only [bind_eq_ok]
  constructor
  · rintro ⟨_, hknown, exports, hexports, _, hplain, ⟨⟩⟩
    rw [checkKeys_eq_ok_iff] at hknown
    rw [checkExports_eq_ok_iff] at hexports
    rw [forM_eq_ok_iff] at hplain
    refine ⟨fun key value hvalue => ?_, exports, hexports.2, rfl⟩
    have hkey : key ∈ Members.keys members :=
      List.mem_map.2 ⟨_, Members.mem_of_get? hvalue, rfl⟩
    rcases mem_keys_iff.1 (hknown key hkey) with rfl | hkey
    · exact hexports.1 value hvalue
    · exact checkFits_eq_ok_iff.1 (hplain key hkey) value hvalue
  · rintro ⟨hfits, exports, htaken, rfl⟩
    have hknown : ∀ key ∈ Members.keys members, key ∈ keys := by
      intro key hkey
      obtain ⟨value, hvalue⟩ := Option.ne_none_iff_exists'.1 fun hnone =>
        Members.get?_eq_none_iff.1 hnone hkey
      exact mem_keys_of_fits (hfits key value hvalue)
    exact ⟨(), checkKeys_eq_ok_iff.2 hknown, exports,
      checkExports_eq_ok_iff.2 ⟨hfits "exports", htaken⟩, (),
      forM_eq_ok_iff.2 fun key _ => checkFits_eq_ok_iff.2 (hfits key), rfl⟩

/-- A document is accepted if each of its values may stand under its key. -/
theorem exists_updateMembers_iff :
    (∃ c, base.updateMembers members = .ok c) ↔ Acceptable members := by
  simp only [updateMembers_eq_ok_iff]
  constructor
  · rintro ⟨_, hfits, -⟩
    exact hfits
  · intro hfits
    rcases hget : Members.get? "exports" members with _ | value
    · exact ⟨_, hfits, none, rfl, rfl⟩
    · obtain ⟨names, hnames, -⟩ := exists_parts_of_fits (hfits _ _ hget)
      exact ⟨_, hfits, some names, (taken_exports hnames).symm, rfl⟩

/-- An acceptable document is accepted on top of any configuration. -/
theorem Acceptable.exists_updateMembers (h : Acceptable members) (base : Config) :
    ∃ c, base.updateMembers members = .ok c := exists_updateMembers_iff.2 h

/-- Members under different keys are set one after the other, each under its own key. -/
theorem get?_fields_foldl_set (hdistinct : (Members.keys members).Nodup) (hkey : key ∈ keys)
    (hexports : key ≠ "exports") :
    Members.get? key (members.foldl (fun c m => c.set m.1 m.2) base).fields =
      (Members.get? key members).or (Members.get? key base.fields) := by
  induction members generalizing base with
  | nil => rfl
  | cons m rest ih =>
    rw [Members.keys_cons, List.nodup_cons] at hdistinct
    rw [List.foldl_cons, ih hdistinct.2, get?_fields_set hkey hexports, Members.get?]
    by_cases hm : m.1 = key
    · subst hm
      rw [if_pos rfl, if_pos rfl, Members.get?_eq_none_iff.2 hdistinct.1, Option.none_or,
        Option.some_or]
    · rw [if_neg hm, if_neg hm]

/-- Members that are set leave the exports as they are. -/
theorem exports_foldl_set :
    (members.foldl (fun c m => c.set m.1 m.2) base).exports = base.exports := by
  induction members generalizing base with
  | nil => rfl
  | cons m rest ih => rw [List.foldl_cons, ih, exports_set]

/-- A document that is accepted overrides the settings under its keys. -/
theorem overrides_updateMembers (hdistinct : (Members.keys members).Nodup)
    (h : base.updateMembers members = .ok c) :
    Overrides (fun key => (Members.get? key members).bind (taken key)) base c := by
  obtain ⟨-, exports, htaken, rfl⟩ := updateMembers_eq_ok_iff.1 h
  intro key hkey
  by_cases hexports : key = "exports"
  · subst hexports
    dsimp only
    rw [← htaken, get?_exports, get?_exports]
    rcases exports with _ | names
    · exact congrArg (fun names => some (Json.array names)) exports_foldl_set
    · rfl
  · have hgiven : (Members.get? key members).bind (taken key) = Members.get? key members := by
      rcases Members.get? key members with _ | value
      · rfl
      · exact taken_of_ne hexports
    dsimp only
    rw [hgiven, ← get?_fields_foldl_set hdistinct hkey hexports]
    rcases exports with _ | names
    · rfl
    · exact get?_fields_exports names hexports

/-- A document that is refused with an error has an unknown key, exports without parts, or a value
    that may not stand under its key; the error says so. -/
theorem updateMembers_eq_error {e : Failure} (h : base.updateMembers members = .error e) :
    (∃ key ∈ Members.keys members, key ∉ keys) ∧
      e = .diagnostic (.unknownKeys (unknownKeys (Members.keys members)) keys) ∨
    (∀ key ∈ Members.keys members, key ∈ keys) ∧ ∃ key value,
      Members.get? key members = some value ∧
      (e = .diagnostic (unfit key) ∧ fits key value = false ∨
       ∃ fault, key = "exports" ∧ parts value = .error fault ∧ e = .fault fault) := by
  rw [updateMembers_eq, bind_eq_error] at h
  rcases h with h | ⟨_, hknown, h⟩
  · rw [checkKeys_eq] at h
    split at h
    · cases h
    · rename_i hunknown
      push Not at hunknown
      cases h
      exact .inl ⟨hunknown, rfl⟩
  · refine .inr ⟨checkKeys_eq_ok_iff.1 hknown, ?_⟩
    rw [bind_eq_error] at h
    rcases h with h | ⟨exports, hexports, h⟩
    · obtain ⟨value, hvalue, ⟨fault, hparts, he⟩ | ⟨_, _, hunfit, he⟩⟩ :=
        checkExports_eq_error_iff.1 h
      · exact ⟨"exports", value, hvalue, .inr ⟨fault, rfl, hparts, he⟩⟩
      · exact ⟨"exports", value, hvalue, .inl ⟨he, hunfit⟩⟩
    · rw [bind_eq_error] at h
      rcases h with h | ⟨_, _, ⟨⟩⟩
      obtain ⟨_, key, _, -, -, h⟩ := forM_eq_error_iff.1 h
      obtain ⟨he, value, hvalue, hunfit⟩ := checkFits_eq_error_iff.1 h
      exact ⟨key, value, hvalue, .inl ⟨he, hunfit⟩⟩

end TaintWeave.Config
