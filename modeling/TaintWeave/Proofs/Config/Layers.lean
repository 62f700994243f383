import Mathlib.Data.List.Permutation
import TaintWeave.Proofs.Config.Documents
import TaintWeave.Proofs.Json.Distinct

/-!
# Settings in layers

A configuration comes about in layers: documents, files, and settings from elsewhere. A document
sets what it has a key for; settings from elsewhere count if they are not empty. Either way a layer
succeeds or fails on its own, whatever the settings are that it comes on top of, and one that fails
changes nothing. So two layers are as good as one, and of many layers the last one counts that sets
a setting.

* `Config.exists_override_iff`, `Config.overrides_override`: when settings from elsewhere are
  accepted, and what they override.
* `Config.overlay`: settings over other settings.
* `Config.Layer`: the layers, with what they give (`Layer.given`).
* `Config.layers_compose`: two layers are one, and the last of many counts.
-/

namespace TaintWeave

namespace Config

variable {base c c' c₁ c₂ d : Config} {members settings earlier later : Members Json}
  {key : String} {value : Json}

/-! ## Values that can be taken -/

/-- Something can be taken of all values under the keys. -/
def Takes (found : String → Option Json) : Prop :=
  ∀ key value, found key = some value → (taken key value).isSome = true

/-- Only exports may have nothing to take. -/
theorem takes_iff {found : String → Option Json} :
    Takes found ↔ ∀ value, found "exports" = some value → ∃ names, parts value = .ok names := by
  constructor
  · intro h value hvalue
    have := h "exports" value hvalue
    rw [taken, if_pos rfl] at this
    rcases hparts : parts value with fault | names
    · rw [hparts] at this
      cases this
    · exact ⟨names, rfl⟩
  · intro h key value hvalue
    by_cases hkey : key = "exports"
    · subst hkey
      obtain ⟨names, hnames⟩ := h value hvalue
      rw [taken_exports hnames]
      rfl
    · rw [taken_of_ne hkey]
      rfl

/-- What is taken of later values or else of earlier ones is what is taken of the later ones, or
    else of the earlier ones, if something can be taken of all later values. -/
theorem Takes.bind_or {found : String → Option Json} (h : Takes found) (other : Option Json) :
    ((found key).or other).bind (taken key) =
      ((found key).bind (taken key)).or (other.bind (taken key)) := by
  rcases hfound : found key with _ | value
  · rfl
  · obtain ⟨json, hjson⟩ := Option.isSome_iff_exists.1 (h key value hfound)
    rw [Option.some_or, Option.bind_some, hjson, Option.some_or]

/-- Something can be taken of all values of a document that is accepted. -/
theorem Acceptable.takes (h : Acceptable members) : Takes fun key => Members.get? key members :=
  takes_iff.2 fun value hvalue =>
    let ⟨names, hnames, _⟩ := exists_parts_of_fits (h "exports" value hvalue)
    ⟨names, hnames⟩

/-! ## Settings from elsewhere -/

/-- What settings from elsewhere have under a key, unless it is empty. -/
def present (settings : Members Json) (key : String) : Option Json :=
  (Members.get? key settings).filter isGiven

/-- One step of overriding: the setting under a key is set to what is present there. -/
def overrideAt (settings : Members Json) (c : Config) (key : String) : Except Fault Config :=
  match present settings key with
  | none => .ok c
  | some value =>
    if key = "exports" then (parts value).map fun names => { c with exports := names }
    else .ok (c.set key value)

/-- Settings override a configuration key by key. -/
theorem override_eq : base.override settings = keys.foldlM (overrideAt settings) base := by
  refine foldlM_congr (fun key _ c => ?_) base
  rw [overrideAt, present]
  rcases Members.get? key settings with _ | value
  · rfl
  · cases hgiven : isGiven value <;> simp [Option.filter, hgiven]

/-- A step fails at exports without parts and nowhere else. -/
theorem exists_overrideAt_iff : (∃ c', overrideAt settings c key = .ok c') ↔
    ∀ value, present settings key = some value → (taken key value).isSome = true := by
  unfold overrideAt
  rcases present settings key with _ | value
  · simp
  · simp only [Option.some.injEq, forall_eq', taken]
    split
    · rcases parts value with fault | names
      · simp [Except.map, Except.toOption]
      · simp [Except.map, Except.toOption]
    · simp

/-- A step overrides the setting under its key. -/
theorem get?_of_overrideAt {k : String} (h : overrideAt settings c k = .ok c') (hkey : key ∈ keys) :
    Members.get? key c'.fields =
      if k = key then ((present settings key).bind (taken key)).or (Members.get? key c.fields)
      else Members.get? key c.fields := by
  unfold overrideAt at h
  rcases hpresent : present settings k with _ | value
  · rw [hpresent] at h
    cases h
    split
    · rename_i heq
      rw [← heq, hpresent]
      rfl
    · rfl
  · rw [hpresent] at h
    dsimp only at h
    split at h
    · rename_i hexports
      obtain ⟨names, hnames, rfl⟩ := map_eq_ok.1 h
      subst hexports
      by_cases heq : "exports" = key
      · subst heq
        rw [if_pos rfl, hpresent, Option.bind_some, taken_exports hnames, get?_exports]
        rfl
      · rw [if_neg heq, get?_fields_exports names (Ne.symm heq)]
    · rename_i hexports
      cases h
      by_cases heq : k = key
      · subst heq
        rw [if_pos rfl, hpresent, Option.bind_some, taken_of_ne hexports,
          get?_fields_set hkey hexports, if_pos rfl]
        rfl
      · rw [if_neg heq]
        by_cases hkeyexports : key = "exports"
        · subst hkeyexports
          rw [get?_exports, get?_exports, exports_set]
        · rw [get?_fields_set hkey hkeyexports, if_neg heq]

/-- Settings from elsewhere are accepted if their exports have parts. -/
theorem exists_override_iff :
    (∃ c, base.override settings = .ok c) ↔ Takes (present settings) := by
  rw [override_eq]
  constructor
  · rintro ⟨c, hc⟩
    have hdone : ∀ key ∈ keys, ∀ value, present settings key = some value →
        (taken key value).isSome = true :=
      foldlM_ok_induction (P := fun done _ => ∀ key ∈ done, ∀ value,
          present settings key = some value → (taken key value).isSome = true) hc
        (List.forall_mem_nil _) fun done c k c' hdone hstep =>
          List.forall_mem_append.2 ⟨hdone, List.forall_mem_singleton.2
            (exists_overrideAt_iff.1 ⟨c', hstep⟩)⟩
    intro key value hvalue
    by_cases hkey : key = "exports"
    · exact hdone key (hkey ▸ by decide) value hvalue
    · rw [taken_of_ne hkey]
      rfl
  · intro htakes
    rcases hrun : keys.foldlM (overrideAt settings) base with fault | c
    · obtain ⟨c, key, -, hstep⟩ := exists_of_foldlM_eq_error hrun
      obtain ⟨c', hc'⟩ := (exists_overrideAt_iff (c := c)).2 (htakes key)
      rw [hstep] at hc'
      cases hc'
    · exact ⟨c, rfl⟩

/-- Settings whose exports have parts are accepted on top of any configuration. -/
theorem Takes.exists_override (h : Takes (present settings)) (base : Config) :
    ∃ c, base.override settings = .ok c := exists_override_iff.2 h

/-- Settings from elsewhere override those under whose keys they are present. -/
theorem overrides_override (h : base.override settings = .ok c) :
    Overrides (fun key => (present settings key).bind (taken key)) base c := by
  rw [override_eq] at h
  have hdone : ∀ key ∈ keys, Members.get? key c.fields = if key ∈ keys then
      ((present settings key).bind (taken key)).or (Members.get? key base.fields)
      else Members.get? key base.fields :=
    foldlM_ok_induction (P := fun done c => ∀ key ∈ keys, Members.get? key c.fields =
        if key ∈ done then ((present settings key).bind (taken key)).or
          (Members.get? key base.fields) else Members.get? key base.fields) h
      (fun key _ => by simp) fun done c k c' hdone hstep key hkey => by
        rw [get?_of_overrideAt hstep hkey, hdone key hkey]
        by_cases hk : k = key
        · subst hk
          rw [if_pos rfl, if_pos (List.mem_append_right _ (List.mem_singleton_self k))]
          split
          · rw [← Option.or_assoc, Option.or_self]
          · rfl
        · simp [hk, Ne.symm hk]
  intro key hkey
  rw [hdone key hkey, if_pos hkey]

/-- Settings over other settings: under each key what is present in the later ones, or else what the
    earlier ones have. -/
def overlay (earlier later : Members Json) : Members Json :=
  keys.filterMap fun key =>
    ((present later key).or (Members.get? key earlier)).map fun value => (key, value)

/-- What is present in settings over others is what is present in the later or the earlier ones. -/
theorem present_overlay (hkey : key ∈ keys) :
    present (overlay earlier later) key = (present later key).or (present earlier key) := by
  have hget : Members.get? key (overlay earlier later) =
      (present later key).or (Members.get? key earlier) := Members.get?_filterMap hkey
  rw [present, hget]
  rcases hlater : present later key with _ | value
  · rfl
  · have hgiven : isGiven value = true := (Option.filter_eq_some_iff.1 hlater).2
    simp [Option.filter, hgiven]

/-! ## Layers -/

/-- A source of settings. -/
inductive Layer where
  /-- A document in which no key is there twice. -/
  | document (document : Json) (distinct : document.Distinct)
  /-- The file with a path, and the text in it unless it cannot be read. -/
  | file (path : String) (text : Except Failure String)
  /-- Settings from elsewhere. -/
  | settings (settings : Members Json)

namespace Layer

/-- The configuration that a layer makes of another one. -/
def apply (base : Config) : Layer → Except Failure Config
  | .document j _ => base.update j
  | .file path text => do base.updateText path (← text)
  | .settings more => base.override more

/-- The members of the document in a layer, if there is one. -/
def members? : Layer → Option (Members Json)
  | .document (.object members) _ => some members
  | .file path text => (text >>= readText path).toOption
  | _ => none

/-- The setting that a layer gives under a key. -/
def given (key : String) : Layer → Option Json
  | .settings more => (present more key).bind (taken key)
  | layer => (layer.members?.bind (Members.get? key)).bind (taken key)

/-- Whether a layer succeeds, on the defaults. -/
def succeeds (layer : Layer) : Bool := (layer.apply {}).isOk

/-- A configuration with layers on top, one after the other; those that fail are left out. -/
def applyAll (layers : List Layer) (base : Config) : Config :=
  layers.foldl (fun c layer => (layer.apply c).toOption.getD c) base

end Layer

/-- What a document that is no object comes to, with the texts it is made of, if it is. -/
def updateTexts (base : Config) (found : Option (List String)) : Except Failure Config :=
  match found with
  | none => throw (.fault .wrongType)
  | some names => do
    checkKeys names
    if names.isEmpty then return base else throw (.fault .wrongContent)

/-- Texts change nothing where they are accepted. -/
theorem updateTexts_eq (found : Option (List String)) :
    base.updateTexts found = (updateTexts {} found).map fun _ => base := by
  rcases found with _ | names
  · rfl
  · dsimp only [updateTexts]
    rcases checkKeys names with e | _
    · rfl
    · cases names.isEmpty <;> rfl

/-- A document that is no object changes nothing where it is accepted. -/
theorem update_of_not_object {j : Json} (h : ∀ members, j ≠ .object members) :
    base.update j = (update {} j).map fun _ => base := by
  rcases j with _ | b | n | s | items | members
  case text =>
    exact updateTexts_eq ((s.toList.map fun c => .text (String.ofList [c])).mapM Json.text?)
  case array => exact updateTexts_eq (items.mapM Json.text?)
  case object => exact absurd rfl (h members)
  all_goals rfl

/-- The members in the text of a file have different keys. -/
theorem nodup_of_readText {path text : String} (h : readText path text = .ok members) :
    (Members.keys members).Nodup := by
  unfold readText at h
  dsimp only at h
  split at h <;> cases h
  rename_i hread
  exact (Json.distinct_object.1 (Json.distinct_of_read hread)).1

namespace Layer

variable {layer : Layer} {j : Json}

/-- A layer with a document that is no object gives nothing. -/
theorem given_of_not_object {distinct : j.Distinct} (h : ∀ members, j ≠ .object members) :
    (document j distinct).given key = none := by
  rcases j with _ | b | n | s | items | members
  case object => exact absurd rfl (h members)
  all_goals rfl

/-- A file that can be read gives what the document in it has. -/
theorem given_file {path text : String} (h : readText path text = .ok members) :
    (file path (.ok text)).given key = (Members.get? key members).bind (taken key) := by
  have hmembers : (file path (.ok text)).members? = some members := toOption_eq_some_iff.2 h
  have hgiven : (file path (.ok text)).given key =
      ((file path (.ok text)).members?.bind (Members.get? key)).bind (taken key) := rfl
  rw [hgiven, hmembers, Option.bind_some]

/-- A layer that succeeds overrides the settings that it gives. -/
theorem overrides (h : layer.apply base = .ok c) :
    Overrides (fun key => layer.given key) base c := by
  rcases layer with ⟨j, hdistinct⟩ | ⟨path, text⟩ | settings
  case document =>
    by_cases hobject : ∃ members, j = .object members
    · obtain ⟨members, rfl⟩ := hobject
      exact overrides_updateMembers (Json.distinct_object.1 hdistinct).1 h
    · push Not at hobject
      have hc : base.update j = .ok c := h
      rw [update_of_not_object hobject] at hc
      obtain ⟨_, -, rfl⟩ := map_eq_ok.1 hc
      intro key _
      dsimp only
      rw [given_of_not_object hobject, Option.none_or]
  case file =>
    obtain ⟨text, rfl, htext⟩ := bind_eq_ok.1 h
    obtain ⟨members, hmembers, hc⟩ := bind_eq_ok.1 htext
    exact (overrides_updateMembers (nodup_of_readText hmembers) hc).congr fun key _ =>
      (given_file hmembers).symm
  case settings => exact overrides_override (mapError_eq_ok.1 h)

/-- A layer that succeeds on top of a configuration succeeds on top of any other. -/
theorem exists_apply (h : layer.apply base = .ok c) (other : Config) :
    ∃ c', layer.apply other = .ok c' := by
  rcases layer with ⟨j, hdistinct⟩ | ⟨path, text⟩ | settings
  case document =>
    by_cases hobject : ∃ members, j = .object members
    · obtain ⟨members, rfl⟩ := hobject
      exact (exists_updateMembers_iff.1 ⟨c, h⟩).exists_updateMembers other
    · push Not at hobject
      have hc : base.update j = .ok c := h
      rw [update_of_not_object hobject] at hc
      obtain ⟨c', hc', -⟩ := map_eq_ok.1 hc
      exact ⟨other, (update_of_not_object hobject).trans (map_eq_ok.2 ⟨c', hc', rfl⟩)⟩
  case file =>
    obtain ⟨text, rfl, htext⟩ := bind_eq_ok.1 h
    obtain ⟨members, hmembers, hc⟩ := bind_eq_ok.1 htext
    obtain ⟨c', hc'⟩ := (exists_updateMembers_iff.1 ⟨c, hc⟩).exists_updateMembers other
    exact ⟨c', bind_eq_ok.2 ⟨text, rfl, bind_eq_ok.2 ⟨members, hmembers, hc'⟩⟩⟩
  case settings =>
    obtain ⟨c', hc'⟩ := (exists_override_iff.1 ⟨c, mapError_eq_ok.1 h⟩).exists_override other
    exact ⟨c', mapError_eq_ok.2 hc'⟩

/-- Whether a layer succeeds does not depend on what it comes on top of. -/
theorem isOk_apply (layer : Layer) (base : Config) : (layer.apply base).isOk = layer.succeeds := by
  rw [Bool.eq_iff_iff, succeeds]
  constructor
  · intro h
    rcases hc : layer.apply base with e | c
    · rw [hc] at h
      cases h
    · obtain ⟨c', hc'⟩ := exists_apply hc {}
      rw [hc']
      rfl
  · intro h
    rcases hc : layer.apply {} with e | c
    · rw [hc] at h
      cases h
    · obtain ⟨c', hc'⟩ := exists_apply hc base
      rw [hc']
      rfl

/-- A layer sets what it gives if it succeeds, and nothing otherwise. -/
theorem get?_step (hkey : key ∈ keys) :
    Members.get? key ((layer.apply c).toOption.getD c).fields =
      (if layer.succeeds then layer.given key else none).or (Members.get? key c.fields) := by
  rw [← isOk_apply layer c]
  rcases hstep : layer.apply c with e | c'
  · rfl
  · exact overrides hstep key hkey

/-- After layers on top of a configuration, the last one counts that succeeds and gives a setting,
    and the configuration if there is none. -/
theorem get?_applyAll (layers : List Layer) (hkey : key ∈ keys) :
    Members.get? key (applyAll layers base).fields =
      ((layers.filter succeeds).reverse.findSome? (given key)).or
        (Members.get? key base.fields) := by
  induction layers generalizing base with
  | nil => rfl
  | cons layer rest ih =>
    have hrest : applyAll (layer :: rest) base =
        applyAll rest ((layer.apply base).toOption.getD base) := rfl
    rw [hrest, ih, get?_step hkey, ← Option.or_assoc]
    congr 1
    by_cases h : layer.succeeds = true
    · rw [if_pos h, List.filter_cons_of_pos h, List.reverse_cons, List.findSome?_append,
        List.findSome?_singleton]
    · rw [if_neg h, List.filter_cons_of_neg h, Option.or_none]

end Layer

/-! ## Composition -/

/-- Two documents that are accepted one after the other are as good as one, with the values of the
    second in place of those of the first. -/
theorem update_insertAll (hearlier : (Members.keys earlier).Nodup)
    (hlater : (Members.keys later).Nodup) (h₁ : c.updateMembers earlier = .ok c₁)
    (h₂ : c₁.updateMembers later = .ok c₂) :
    c.updateMembers (Members.insertAll earlier later) = .ok c₂ := by
  have hearlierfits := exists_updateMembers_iff.1 ⟨c₁, h₁⟩
  have hlaterfits := exists_updateMembers_iff.1 ⟨c₂, h₂⟩
  have hfits : Acceptable (Members.insertAll earlier later) := by
    intro key value hvalue
    rw [Members.get?_insertAll hlater, Option.or_eq_some_iff] at hvalue
    rcases hvalue with hvalue | ⟨-, hvalue⟩
    · exact hlaterfits key value hvalue
    · exact hearlierfits key value hvalue
  obtain ⟨c', hc'⟩ := hfits.exists_updateMembers c
  have hsteps := (overrides_updateMembers hearlier h₁).trans (overrides_updateMembers hlater h₂)
  have honce := overrides_updateMembers (Members.nodup_keys_insertAll hearlier later) hc'
  rw [hc', honce.unique (hsteps.congr fun key _ => ?_)]
  rw [Members.get?_insertAll hlater]
  exact (hlaterfits.takes.bind_or _).symm

/-- Settings from elsewhere that are accepted one after the other are as good as the later ones over
    the earlier ones. -/
theorem override_overlay (h₁ : c.override earlier = .ok c₁) (h₂ : c₁.override later = .ok c₂) :
    c.override (overlay earlier later) = .ok c₂ := by
  have hearlier := exists_override_iff.1 ⟨c₁, h₁⟩
  have hlater := exists_override_iff.1 ⟨c₂, h₂⟩
  have htakes : Takes (present (overlay earlier later)) := by
    refine takes_iff.2 fun value hvalue => ?_
    rw [present_overlay (by decide), Option.or_eq_some_iff] at hvalue
    rcases hvalue with hvalue | ⟨-, hvalue⟩
    · exact takes_iff.1 hlater value hvalue
    · exact takes_iff.1 hearlier value hvalue
  obtain ⟨c', hc'⟩ := htakes.exists_override c
  have hsteps := (overrides_override h₁).trans (overrides_override h₂)
  rw [hc', (overrides_override hc').unique (hsteps.congr fun key hkey => ?_)]
  rw [present_overlay hkey]
  exact (hlater.bind_or _).symm

/-- Configurations are composed in layers, of which the last counts.
    * Two documents that are accepted one after the other are as good as one, with the values of the
      second in place of those of the first. Settings that none of them names stay.
    * Settings from elsewhere that are accepted one after the other are as good as the later ones
      over the earlier ones.
    * Layers of all kinds succeed or fail whatever they come on top of. After any number of them,
      each setting is what the last one gives that succeeds and gives it, or else what it was. -/
theorem layers_compose (c : Config) :
    (∀ earlier later c₁ c₂, (Members.keys earlier).Nodup → (Members.keys later).Nodup →
      c.update (.object earlier) = .ok c₁ → c₁.update (.object later) = .ok c₂ →
      c.update (.object (Members.insertAll earlier later)) = .ok c₂ ∧
      ∀ key ∈ keys, key ∉ Members.keys earlier → key ∉ Members.keys later →
        Members.get? key c₂.fields = Members.get? key c.fields) ∧
    (∀ earlier later c₁ c₂, c.override earlier = .ok c₁ → c₁.override later = .ok c₂ →
      c.override (overlay earlier later) = .ok c₂) ∧
    ∀ layers : List Layer, (∀ layer ∈ layers, ∀ base, (layer.apply base).isOk = layer.succeeds) ∧
      ∀ key ∈ keys, Members.get? key (Layer.applyAll layers c).fields =
        ((layers.filter Layer.succeeds).reverse.findSome? (Layer.given key)).or
          (Members.get? key c.fields) := by
  refine ⟨fun earlier later c₁ c₂ hearlier hlater h₁ h₂ => ?_,
    fun earlier later c₁ c₂ h₁ h₂ => override_overlay h₁ h₂, fun layers =>
      ⟨fun layer _ base => layer.isOk_apply base, fun key hkey => Layer.get?_applyAll layers hkey⟩⟩
  refine ⟨update_insertAll hearlier hlater h₁ h₂, fun key hkey hkey₁ hkey₂ => ?_⟩
  rw [overrides_updateMembers hlater h₂ key hkey, overrides_updateMembers hearlier h₁ key hkey]
  dsimp only
  rw [Members.get?_eq_none_iff.2 hkey₁, Members.get?_eq_none_iff.2 hkey₂]
  rfl

/-- A document that names a mock and switches debugging on, and one that switches it off again;
    settings that name another mock, and settings with no mocks that record no sinks. -/
theorem layers_compose_overridden :
    update {} (.object (Members.insertAll
        [("exports", .array [.text "__not__"]), ("debug", .boolean true)]
        [("debug", .boolean false)])) =
      .ok { exports := [.text "__not__"], debug := .boolean false } ∧
    override {} (overlay [("exports", .array [.text "__plus__"]), ("taint_name", .null)]
        [("exports", .array []), ("record_sinks", .boolean false)]) =
      .ok { exports := [.text "__plus__"], recordSinks := .boolean false } := by
  have hnamed : update {} (.object
        [("exports", .array [.text "__not__"]), ("debug", .boolean true)]) =
      .ok { exports := [.text "__not__"], debug := .boolean true } := by cbv
  have hsilent : update { exports := [.text "__not__"], debug := .boolean true }
        (.object [("debug", .boolean false)]) =
      .ok { exports := [.text "__not__"], debug := .boolean false } := by cbv
  have hother : override {} [("exports", .array [.text "__plus__"]), ("taint_name", .null)] =
      .ok { exports := [.text "__plus__"] } := by cbv
  have hunrecorded : override { exports := [.text "__plus__"] }
        [("exports", .array []), ("record_sinks", .boolean false)] =
      .ok { exports := [.text "__plus__"], recordSinks := .boolean false } := by cbv
  exact ⟨((layers_compose {}).1 _ _ _ _ (by decide) (by decide) hnamed hsilent).1,
    (layers_compose {}).2.1 _ _ _ _ hother hunrecorded⟩

end Config
end TaintWeave
