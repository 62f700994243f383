import TaintWeave.Proofs.Catalog.Construction
import TaintWeave.Proofs.Instrumentation.Documents
import TaintWeave.Proofs.Node.Showing
import TaintWeave.Proofs.Node.Walk

/-!
# Documents that fail later

A document that is no syntax tree is rejected when it is read. What is read goes through three more
stages: the tree is instrumented, and what comes out is written and shown. Reading looks at the
operands of operators and at callees only. So a document may be accepted and fail later: what
stands for an operator or a name cannot be looked up, a node stands where it cannot be written, or
the arguments of a call are no list of nodes. These are the only failures, and each is a fault of
its own stage.

* `Node.failsWith_ofJson`: a document is rejected for being no syntax tree, and for nothing else.
* `Node.failsWith_toJson`, `Node.failsWith_toSexp`, `Catalog.failsWith_instrument`: the faults of
  the later stages.
* `Catalog.Handles`: a node that no stage fails at.
* `Catalog.completes_iff_handles`: which documents go through all stages.
* `Catalog.completes_of_isOrdinary`: documents of the usual shape do.
-/

namespace TaintWeave

/-! ## Rejected documents -/

/-- A document is no syntax tree. -/
def Diagnostic.IsConversion (d : Diagnostic) : Prop := d.errorClass = .nodeConversion

theorem failsWith_requireKey {α : Type} (type key : String) (found : Members α) :
    FailsWith Diagnostic.IsConversion (requireKey type found key) := by
  rw [requireKey]
  split
  · exact .ok _
  · exact .error rfl

theorem failsWith_requireNode (type key : String) (s : Slot) :
    FailsWith Diagnostic.IsConversion (requireNode type key s) := by
  cases s with
  | node n => exact .ok n
  | list items => exact .error rfl
  | data j => exact .error rfl

/-- The values under some keys are rejected for what is wrong with one of them. -/
theorem Conversions.failsWith_select {P : Diagnostic → Prop} {conversions : Conversions}
    (h : ∀ key result, Members.get? key conversions = some result → FailsWith P result)
    (keys : List String) : FailsWith P (conversions.select keys) := by
  intro d hd
  obtain ⟨found, key, -, hkey⟩ := exists_of_foldlM_eq_error hd
  rcases hget : Members.get? key conversions with _ | result
  · rw [hget] at hkey
    cases hkey
  · rw [hget] at hkey
    exact (h key result hget).map _ d hkey

/-- A node is rejected for being none, if the values under its keys are. -/
theorem Node.failsWith_ofMembers {members : Members Json} {conversions : Conversions}
    (h : ∀ key result, Members.get? key conversions = some result →
      FailsWith Diagnostic.IsConversion result) :
    FailsWith Diagnostic.IsConversion (ofMembers members conversions) := by
  have hselect := Conversions.failsWith_select h
  have hunary (kind type extra) : FailsWith Diagnostic.IsConversion
      (ofMembers.unaryOfMembers kind type extra conversions) :=
    (hselect _).bind fun _ => (failsWith_requireKey _ _ _).bind fun _ =>
      (failsWith_requireKey _ _ _).bind fun _ => (failsWith_requireNode _ _ _).bind fun _ => .ok _
  have hbinary (kind type extra) : FailsWith Diagnostic.IsConversion
      (ofMembers.binaryOfMembers kind type extra conversions) :=
    (hselect _).bind fun _ => (failsWith_requireKey _ _ _).bind fun _ =>
      (failsWith_requireKey _ _ _).bind fun _ => (failsWith_requireKey _ _ _).bind fun _ =>
        (failsWith_requireNode _ _ _).bind fun _ => (failsWith_requireNode _ _ _).bind fun _ =>
          .ok _
  rw [ofMembers]
  split
  · rename_i type _
    dsimp only
    cases NodeType.ofName type with
    | identifier =>
      exact (hselect _).bind fun _ => (failsWith_requireKey _ _ _).bind fun _ => .ok _
    | literal => exact (failsWith_requireKey _ _ _).bind fun _ => .ok _
    | unary => exact hunary _ _ _
    | update => exact hunary _ _ _
    | binary => exact hbinary _ _ _
    | logical => exact hbinary _ _ _
    | call =>
      exact (hselect _).bind fun _ => (failsWith_requireKey _ _ _).bind fun _ =>
        (failsWith_requireKey _ _ _).bind fun _ => (failsWith_requireNode _ _ _).bind fun _ => .ok _
    | other => exact (hselect _).bind fun _ => .ok _
  · exact .error rfl

/-- A value is rejected for an object in it that is no node. -/
theorem Slot.failsWith_ofJson (j : Json) : FailsWith Diagnostic.IsConversion (Slot.ofJson j) := by
  induction j using Json.induction_on_parts with
  | step j ih =>
    cases j with
    | array items =>
      rw [ofJson, ofItems_eq]
      exact (FailsWith.mapM ih).map Slot.list
    | object members =>
      rw [ofJson_object]
      split
      · refine (Node.failsWith_ofMembers fun key result hresult => ?_).map Slot.node
        rw [get?_convertMembers] at hresult
        obtain ⟨j, hj, rfl⟩ := Option.map_eq_some_iff.1 hresult
        exact ih j (Json.mem_parts_object (Members.mem_of_get? hj))
      · exact .ok _
    | null | boolean _ | number _ | text _ => exact .ok _

/-- A document is rejected for being no syntax tree, and for nothing else. -/
theorem Node.failsWith_ofJson (document : Json) :
    FailsWith Diagnostic.IsConversion (Node.ofJson document) := by
  cases document with
  | object members =>
    refine failsWith_ofMembers fun key result hresult => ?_
    rw [Slot.get?_convertMembers] at hresult
    obtain ⟨j, -, rfl⟩ := Option.map_eq_some_iff.1 hresult
    exact Slot.failsWith_ofJson j
  | null | boolean _ | number _ | text _ | array _ => exact .error rfl

/-! ## Faults -/

/-- A slot that is not for nodes fails for a node in it. -/
theorem Slot.failsWith_plainJson (s : Slot) : FailsWith (· = .missingKey) s.plainJson := by
  induction s using induction_on_items with
  | node n => exact .error rfl
  | list items ih =>
    rw [plainJson, plainItems_eq]
    exact (FailsWith.mapM ih).map Json.array
  | data j => exact .ok j

/-- A slot fails to be written as its nodes do. -/
theorem Slot.failsWith_toJson {P : Fault → Prop} {s : Slot}
    (h : ∀ n ∈ s.nodes, FailsWith P n.toJson) : FailsWith P s.toJson := by
  induction s using induction_on_items with
  | node n => exact h n (List.mem_singleton_self n)
  | list items ih =>
    rw [nodes, listNodes_eq, List.forall_mem_flatMap] at h
    rw [toJson, itemsToJson_eq]
    exact (FailsWith.mapM fun s hs => ih s hs (h s hs)).map Json.array
  | data j => exact .ok j

/-- A tree fails to be written for a node that stands where its parent has no child. -/
theorem Node.failsWith_toJson (n : Node) : FailsWith (· = .missingKey) n.toJson := by
  induction n using Node.induction_on_children with
  | step n ih =>
    cases n with
    | identifier name extra => exact name.failsWith_plainJson.bind fun _ => .ok _
    | literal value raw extra => exact .ok _
    | unary kind operator argument leading extra =>
      exact operator.failsWith_plainJson.bind fun _ =>
        (ih argument (by simp [children])).bind fun _ =>
          leading.failsWith_plainJson.bind fun _ => .ok _
    | binary kind operator left right extra =>
      exact operator.failsWith_plainJson.bind fun _ =>
        (ih left (by simp [children])).bind fun _ =>
          (ih right (by simp [children])).bind fun _ => .ok _
    | call callee arguments extra =>
      exact (ih callee List.mem_cons_self).bind fun _ =>
        (Slot.failsWith_toJson fun c hc => ih c (List.mem_cons_of_mem _ hc)).bind fun _ => .ok _
    | other type fields extra =>
      have hfield : ∀ field ∈ fields, FailsWith (· = .missingKey) (Slot.toMember field) :=
        fun field hfield => (Slot.failsWith_toJson fun c hc =>
          ih c (List.mem_flatMap.2 ⟨field, hfield, hc⟩)).map _
      rw [toJson, Slot.fieldsToJson_eq]
      exact (FailsWith.mapM hfield).bind fun _ => .ok _

/-- The arguments of a call are no list of nodes. -/
def Fault.IsOfArguments (f : Fault) : Prop := f = .wrongType ∨ f = .missingPart

/-- Arguments fail to be shown as their nodes do, or for being no list of nodes. -/
theorem Slot.failsWith_argumentSexps {s : Slot}
    (h : ∀ n ∈ s.nodes, FailsWith Fault.IsOfArguments n.toSexp) :
    FailsWith Fault.IsOfArguments s.argumentSexps := by
  cases s with
  | node n => exact .error (.inl rfl)
  | list items =>
    rw [argumentSexps]
    rw [nodes] at h
    induction items with
    | nil => exact .ok []
    | cons s rest ih =>
      rw [listNodes, List.forall_mem_append] at h
      cases s with
      | node n =>
        exact (h.1 n (List.mem_singleton_self n)).bind fun _ => (ih h.2).bind fun _ => .ok _
      | list _ | data _ => exact .error (.inr rfl)
  | data j =>
    cases j with
    | text s =>
      rw [argumentSexps]
      split
      · exact .ok []
      · exact .error (.inr rfl)
    | object members =>
      rw [argumentSexps]
      split
      · exact .ok []
      · exact .error (.inr rfl)
    | null | boolean _ | number _ | array _ => exact .error (.inl rfl)

/-- A tree fails to be shown for the arguments of a call. -/
theorem Node.failsWith_toSexp (n : Node) : FailsWith Fault.IsOfArguments n.toSexp := by
  induction n using Node.induction_on_children with
  | step n ih =>
    cases n with
    | identifier name extra => exact .ok _
    | literal value raw extra => exact .ok _
    | unary kind operator argument leading extra =>
      exact (ih argument (by simp [children])).bind fun _ => .ok _
    | binary kind operator left right extra =>
      exact (ih left (by simp [children])).bind fun _ =>
        (ih right (by simp [children])).bind fun _ => .ok _
    | call callee arguments extra =>
      exact (ih callee List.mem_cons_self).bind fun _ =>
        (Slot.failsWith_argumentSexps fun c hc => ih c (List.mem_cons_of_mem _ hc)).bind
          fun _ => .ok _
    | other type fields extra =>
      rw [toSexp, Slot.fieldSexps_eq]
      exact (FailsWith.mapM ih).bind fun _ => .ok _

namespace Catalog

variable {catalog : Catalog} {n : Node}

/-- A look-up fails for what cannot be looked up. -/
theorem failsWith_find (catalog : Catalog) (n : Node) :
    FailsWith (· = .wrongType) (catalog.find n) := by
  rw [find]
  split
  · exact .ok none
  · split
    · exact .ok _
    · exact .error rfl

/-- The pass fails as the look-up of one of the nodes does. -/
theorem failsWith_instrument (catalog : Catalog) (n : Node) :
    FailsWith (· = .wrongType) (catalog.instrument n) := by
  intro f hf
  rw [instrument, traverses_instrumentNode n {}] at hf
  obtain hcount | ⟨_, -, hpure⟩ := bind_eq_error.1 hf
  · obtain ⟨stats, m, -, hm⟩ := exists_of_foldlM_eq_error hcount
    exact (failsWith_find catalog m).bind (fun found => by cases found <;> exact .ok _) f hm
  · cases hpure

/-! ## All stages -/

/-- A tree goes through all stages: it is instrumented, and what comes out can be written and
    shown. -/
def Completes (catalog : Catalog) (n : Node) : Prop :=
  ∃ r stats, catalog.instrument n = .ok (r, stats) ∧ (∃ j, r.toJson = .ok j) ∧ ∃ e, r.toSexp = .ok e

/-- A node that no stage fails at, as it stands in the tree that is read. -/
structure Handles (catalog : Catalog) (n : Node) : Prop where
  /-- What stands for an operator or a name that is called can be looked up. -/
  lookup : ∀ s, n.symbol? = some s → slotHasLookup s = true
  /-- Unless a rule replaces the node, it holds no nodes where its type has no children. -/
  plain : catalog.matching n = [] → n.IsPlain
  /-- The arguments of a call can be shown. -/
  arguments : n.ShowsArguments

/-- The calls in an instrumented tree have arguments that can be shown if and only if those in the
    tree have. -/
theorem showsArguments_image_iff (hc : catalog.Coherent) :
    (∀ m ∈ (n.image catalog.replace).preorder, m.ShowsArguments) ↔
      ∀ m ∈ n.preorder, m.ShowsArguments := by
  have hcall : ∀ {callee callee' : Node} {arguments : Slot} {extra extra' : Members Json},
      (Node.call callee (arguments.map (Node.image catalog.replace)) extra).ShowsArguments ↔
        (Node.call callee' arguments extra').ShowsArguments := fun {_ _ arguments _ _} => by
    simp only [Node.ShowsArguments, Node.arguments?, Option.some.injEq, forall_eq']
    exact Slot.isArguments_map _
  have hreplacement : ∀ name operands extra,
      (Node.replacement name operands extra).ShowsArguments := fun name operands extra => by
    rintro _ ⟨⟩
    exact .list (List.forall_mem_map.2 fun n _ => ⟨n, rfl⟩)
  have hnone : ∀ {m : Node}, m.arguments? = none → m.ShowsArguments :=
    Node.showsArguments_of_arguments?
  rw [forall_mem_preorder_image_iff hc fun _ _ => hnone rfl]
  refine forall₂_congr fun m _ => ?_
  rcases image_eq_transform_or hc m with ⟨rule, -, haccepts, himage⟩ | himage
  · rw [himage]
    -- The arguments of a new call are nodes; a call that was there has kept its own.
    cases Rule.Accepts.of_accepts haccepts with
    | unary _ => exact iff_of_true (hreplacement _ _ _) (hnone rfl)
    | binary _ => exact iff_of_true (hreplacement _ _ _) (hnone rfl)
    | call _ =>
      rw [Node.mapChildren, image_identifier]
      exact hcall
  · rw [himage]
    cases m with
    | call callee arguments extra => exact hcall
    | identifier _ _ | literal _ _ _ | unary _ _ _ _ _ | binary _ _ _ _ _ | other _ _ _ =>
      exact iff_of_true (hnone rfl) (hnone rfl)

/-- A tree goes through all stages if no stage fails at one of its nodes. -/
theorem completes_iff (hc : catalog.Coherent) :
    catalog.Completes n ↔ ∀ m ∈ n.preorder, catalog.Handles m := by
  have hstages : catalog.Completes n ↔ (∀ m ∈ n.preorder, ∃ found, catalog.find m = .ok found) ∧
      (∀ m ∈ (n.image catalog.replace).preorder, m.IsPlain) ∧
        ∀ m ∈ (n.image catalog.replace).preorder, m.ShowsArguments := by
    rw [← Node.exists_toJson_iff, ← Node.exists_toSexp_iff]
    constructor
    · rintro ⟨r, stats, hpass, hwritten, hshown⟩
      obtain ⟨hfind, rfl, -⟩ := instrument_eq_ok_iff.1 hpass
      exact ⟨hfind, hwritten, hshown⟩
    · rintro ⟨hfind, hwritten, hshown⟩
      exact ⟨_, _, instrument_eq_ok_iff.2 ⟨hfind, rfl, rfl⟩, hwritten, hshown⟩
  rw [hstages, isPlain_image_iff hc, showsArguments_image_iff hc]
  simp only [exists_find_iff]
  constructor
  · rintro ⟨hlookup, hplain, harguments⟩ m hm
    exact ⟨hlookup m hm, hplain m hm, harguments m hm⟩
  · intro h
    exact ⟨fun m hm => (h m hm).lookup, fun m hm => (h m hm).plain, fun m hm => (h m hm).arguments⟩

/-- A node of the usual shape: scalars where its type has no children, and for the arguments of a
    call a list of nodes or something empty. -/
structure IsOrdinary (n : Node) : Prop where
  scalars : ∀ s ∈ n.plainSlots, ∃ j, s = .data j ∧ hasLookup j = true
  arguments : n.ShowsArguments

/-- No stage fails at a node of the usual shape with such children. -/
theorem Handles.of_isOrdinary (h : IsOrdinary n) (hchildren : ∀ c ∈ n.children, IsOrdinary c) :
    catalog.Handles n := by
  have hscalar : ∀ {m : Node} {s : Slot}, IsOrdinary m → s ∈ m.plainSlots →
      slotHasLookup s = true ∧ s.nodes = [] := fun hm hs => by
    obtain ⟨j, rfl, hj⟩ := hm.scalars _ hs
    exact ⟨hj, rfl⟩
  refine ⟨fun s hs => ?_, fun _ s hs => (hscalar h hs).2, h.arguments⟩
  -- The node is looked up by its operator, or by the name of its first child.
  rcases Node.symbol?_eq_some hs with hoperator | hcallee
  · refine (hscalar h ?_).1
    cases n with
    | unary _ _ _ _ _ | binary _ _ _ _ _ =>
      cases hoperator
      exact List.mem_cons_self
    | identifier _ _ | literal _ _ _ | call _ _ _ | other _ _ _ => cases hoperator
  · cases n with
    | call callee arguments extra =>
      refine (hscalar (hchildren callee List.mem_cons_self) ?_).1
      rw [Node.calleeName?_call] at hcallee
      cases callee with
      | identifier name _ =>
        cases hcallee
        exact List.mem_cons_self
      | literal _ _ _ | unary _ _ _ _ _ | binary _ _ _ _ _ | call _ _ _ | other _ _ _ =>
        cases hcallee
    | identifier _ _ | literal _ _ _ | unary _ _ _ _ _ | binary _ _ _ _ _ | other _ _ _ =>
      cases hcallee

/-- No stage fails at the nodes of a tree of the usual shape. -/
theorem handles_of_isOrdinary (h : ∀ m ∈ n.preorder, IsOrdinary m) :
    ∀ m ∈ n.preorder, catalog.Handles m := by
  induction n using Node.induction_on_children with
  | step n ih =>
    rw [Node.forall_mem_preorder] at h ⊢
    refine ⟨.of_isOrdinary h.1 fun c hc => h.2 c hc c c.mem_preorder_self, fun c hc => ?_⟩
    exact ih c hc (h.2 c hc)

/-- Trees of the usual shape go through all stages. -/
theorem completes_of_isOrdinary (hc : catalog.Coherent) (h : ∀ m ∈ n.preorder, IsOrdinary m) :
    catalog.Completes n :=
  (completes_iff hc).2 (handles_of_isOrdinary h)

/-- A document is rejected for being no syntax tree, or its tree is read. The tree goes through all
    stages if and only if no stage fails at one of its nodes. If one does, it is for a look-up when
    the tree is instrumented, for a node in the wrong place when it is written, or for the arguments
    of a call when it is shown. -/
theorem completes_iff_handles {specs : List Spec} (hcatalog : ofSpecs specs = .ok catalog)
    (document : Json) :
    FailsWith (∃ d : Diagnostic, · = .diagnostic d ∧ d.IsConversion) (Node.read document) ∧
      ∀ n, Node.read document = .ok n →
        (catalog.Completes n ↔ ∀ m ∈ n.preorder, catalog.Handles m) ∧
        FailsWith (· = .wrongType) (catalog.instrument n) ∧
        ∀ r stats, catalog.instrument n = .ok (r, stats) →
          FailsWith (· = .missingKey) r.toJson ∧ FailsWith Fault.IsOfArguments r.toSexp := by
  have hc := (valid_of_ofSpecs hcatalog).coherent
  refine ⟨fun failure hfailure => ?_, fun n _ => ⟨completes_iff hc, failsWith_instrument catalog n,
    fun r stats _ => ⟨r.failsWith_toJson, r.failsWith_toSexp⟩⟩⟩
  rw [Node.read_eq] at hfailure
  obtain ⟨d, hd, rfl⟩ := mapError_eq_error.1 hfailure
  exact ⟨d, rfl, Node.failsWith_ofJson document d hd⟩

/-- The document of `!f(x)` in which a node tells that the operator stands in front. The rule drops
    it, so that all stages go through. -/
theorem completes_iff_handles_not :
    ∃ catalog n, ofSpecs [⟨"!", .unary, "not", "js_logical_not"⟩] = .ok catalog ∧
      Node.read (.object [("type", .text "UnaryExpression"), ("operator", .text "!"),
        ("prefix", .object [("type", .text "True")]),
        ("argument", .object [("type", .text "CallExpression"),
          ("callee", .object [("type", .text "Identifier"), ("name", .text "f")]),
          ("arguments", .array [.object [("type", .text "Identifier"), ("name", .text "x")]])])]) =
        .ok n ∧
      catalog.Completes n := by
  let rule : Rule := ⟨⟨"!", .unary, "not", "js_logical_not"⟩⟩
  let call : Node := .call (.named "f") (.list [.node (.named "x")]) []
  let n : Node := .unary .unary (.text "!") call (.node (.other "True" [] [])) []
  have hcatalog : ofSpecs [⟨"!", .unary, "not", "js_logical_not"⟩] =
    .ok ⟨[rule], [((.unary, "!"), rule), ((.update, "!"), rule)]⟩ := rfl
  have hread := Node.read_eq (.object [("type", .text "UnaryExpression"), ("operator", .text "!"),
    ("prefix", .object [("type", .text "True")]),
    ("argument", .object [("type", .text "CallExpression"),
      ("callee", .object [("type", .text "Identifier"), ("name", .text "f")]),
      ("arguments", .array [.object [("type", .text "Identifier"), ("name", .text "x")]])])])
  have hname : ∀ name, IsOrdinary (.named name) := fun name => ⟨fun s hs => by
    rw [List.mem_singleton.1 hs]
    exact ⟨_, rfl, rfl⟩, Node.showsArguments_of_arguments? rfl⟩
  have hcall : IsOrdinary call := by
    refine ⟨List.forall_mem_nil _, ?_⟩
    rintro _ ⟨⟩
    exact .list (List.forall_mem_singleton.2 ⟨_, rfl⟩)
  have hbelow : ∀ m ∈ call.preorder, IsOrdinary m := by
    rw [show call.preorder = [call, .named "f", .named "x"] from rfl, List.forall_mem_cons]
    exact ⟨hcall, List.forall_mem_cons.2 ⟨hname "f", List.forall_mem_singleton.2 (hname "x")⟩⟩
  refine ⟨_, n, hcatalog, hread, ((completes_iff_handles hcatalog _).2 n hread).1.2 ?_⟩
  rw [Node.forall_mem_preorder]
  refine ⟨⟨?_, nofun, Node.showsArguments_of_arguments? rfl⟩,
    List.forall_mem_singleton.2 (handles_of_isOrdinary hbelow)⟩
  rintro _ ⟨⟩
  rfl

/-- Documents that are accepted and fail later, with the standard operators: `{}` stands for an
    operator, a node is the name of an identifier, or a call has null for its arguments. -/
theorem not_completes_of_unchecked :
    ∃ catalog, ofTable Table.standard = .ok catalog ∧
      (∃ n, Node.read (.object [("type", .text "UnaryExpression"), ("operator", .object []),
          ("argument", .object [("type", .text "Identifier"), ("name", .text "x")])]) = .ok n ∧
        catalog.instrument n = .error .wrongType) ∧
      (∃ n r stats, Node.read (.object [("type", .text "Identifier"),
          ("name", .object [("type", .text "X")])]) = .ok n ∧
        catalog.instrument n = .ok (r, stats) ∧ r.toJson = .error .missingKey) ∧
      ∃ n r stats, Node.read (.object [("type", .text "CallExpression"),
          ("callee", .object [("type", .text "Literal"), ("value", .number (.int 1))]),
          ("arguments", .null)]) = .ok n ∧
        catalog.instrument n = .ok (r, stats) ∧ r.toSexp = .error .wrongType := by
  obtain ⟨catalog, hcatalog⟩ := exists_ofTable_standard
  refine ⟨catalog, hcatalog, ⟨_, Node.read_eq _, rfl⟩, ⟨_, _, _, Node.read_eq _, rfl, rfl⟩,
    ⟨_, _, _, Node.read_eq _, rfl, rfl⟩⟩

end Catalog

end TaintWeave
