import TaintWeave.Proofs.Json.Distinct
import TaintWeave.Proofs.Node.Children
import TaintWeave.Proofs.Node.Reading
import TaintWeave.Proofs.Node.Writing

/-!
# Regular trees

A tree may hold what no document says: data that would be read as a list or as a node, or extra
members under keys that a node has already. A node without such things is *regular*. The nodes that
are read from documents are regular, and a tree of regular nodes is read back as it was written.

* `Slot.Regular`, `Node.Regular`: data is read as data, and extra members are extra.
* `Node.regular_of_ofJson`: the nodes of a tree that is read are regular.
* `Node.ofJson_of_toJson`: a tree of regular nodes is read back as it was written.
* `Node.exists_toJson_iff`: a tree can be written if no node stands where its parent has no child.
-/

namespace TaintWeave

/-! ## Regular nodes -/

/-- Slots in which data is read as data. -/
inductive Slot.Regular : Slot → Prop
  | node (n : Node) : Slot.Regular (.node n)
  | list {items : List Slot} (h : ∀ s ∈ items, s.Regular) : Slot.Regular (.list items)
  | data {j : Json} (h : Slot.ofJson j = .ok (.data j)) : Slot.Regular (.data j)

/-- Nodes in which data is read as data, and extra members are extra. Nothing is said about the
    nodes below. -/
inductive Node.Regular : Node → Prop
  | identifier {name : Slot} {extra : Members Json} (hname : name.Regular)
      (hextra : IsExtra .identifier extra) : Regular (.identifier name extra)
  | literal {value raw : Json} {extra : Members Json} (hextra : IsExtra .literal extra) :
      Regular (.literal value raw extra)
  | unary {kind : UnaryKind} {operator leading : Slot} {argument : Node} {extra : Members Json}
      (hoperator : operator.Regular) (hleading : leading.Regular)
      (hextra : IsExtra kind.nodeType extra) :
      Regular (.unary kind operator argument leading extra)
  | binary {kind : BinaryKind} {operator : Slot} {left right : Node} {extra : Members Json}
      (hoperator : operator.Regular) (hextra : IsExtra kind.nodeType extra) :
      Regular (.binary kind operator left right extra)
  | call {callee : Node} {arguments : Slot} {extra : Members Json}
      (harguments : arguments.Regular) (hextra : IsExtra .call extra) :
      Regular (.call callee arguments extra)
  | other {type : String} {fields : Members Slot} {extra : Members Json}
      (htype : NodeType.ofName type = .other) (hkeys : fields.keys.Nodup)
      (hfieldKeys : ∀ key ∈ fields.keys, isFieldKey key = true)
      (hfields : ∀ field ∈ fields, field.2.Regular) (hextra : extra.keys.Sublist positionKeys) :
      Regular (.other type fields extra)

variable {members : Members Json} {n : Node}

/-! ## Trees that are read -/

/-- A slot is regular, and so are the nodes in it and below. -/
def Slot.IsRegularTree (s : Slot) : Prop := s.Regular ∧ ∀ n ∈ s.nodes, ∀ m ∈ n.preorder, m.Regular

/-- A tree that is built from an object has regular nodes, if this holds of the values under its
    keys. -/
theorem Node.Built.regular (hbuilt : Built members n) (hkeys : members.keys.Nodup)
    (hread : ∀ key s, members.Reads key (some s) → s.IsRegularTree) :
    ∀ m ∈ n.preorder, m.Regular := by
  have hnode : ∀ key c, members.Reads key (some (.node c)) → ∀ m ∈ c.preorder, m.Regular :=
    fun key c hc => (hread key _ hc).2 c (List.mem_singleton_self c)
  rw [forall_mem_preorder]
  rcases hbuilt with ⟨htype, hname⟩ | ⟨htype, hvalue⟩ | ⟨htype, hoperator, hargument, hleading⟩ |
    ⟨htype, hoperator, hleft, hright⟩ | ⟨htype, hcallee, harguments⟩ | ⟨htype, hname, hfields⟩
  case identifier =>
    refine ⟨.identifier (hread _ _ hname).1 (isExtra_extraMembers hkeys _), ?_⟩
    simp [children]
  case literal =>
    refine ⟨.literal (isExtra_extraMembers hkeys _), ?_⟩
    simp [children]
  case unary kind operator argument leading =>
    have hleading' : (leading.getD (.data (.boolean (kind == .unary)))).Regular := by
      rcases leading with _ | s
      · exact .data rfl
      · exact (hread _ _ hleading).1
    refine ⟨.unary (hread _ _ hoperator).1 hleading' (isExtra_extraMembers hkeys _), ?_⟩
    simpa [children] using hnode _ _ hargument
  case binary =>
    refine ⟨.binary (hread _ _ hoperator).1 (isExtra_extraMembers hkeys _), ?_⟩
    simpa [children] using ⟨hnode _ _ hleft, hnode _ _ hright⟩
  case call =>
    refine ⟨.call (hread _ _ harguments).1 (isExtra_extraMembers hkeys _), ?_⟩
    simpa [children] using ⟨hnode _ _ hcallee, (hread _ _ harguments).2⟩
  case other type fields =>
    have hfield : ∀ field ∈ fields, field.2.IsRegularTree := fun field hmem => by
      obtain ⟨m, hm, hfirst⟩ := exists_of_mem_mapM hfields hmem
      obtain ⟨s, hs, rfl⟩ := map_eq_ok.1 hfirst
      have hget := Members.get?_of_mem hkeys (List.mem_filter.1 hm).1
      exact hread m.1 s (Members.reads_some.2 ⟨m.2, hget, hs⟩)
    have hfieldKeys := Slot.keys_of_mapM hfields
    refine ⟨.other hname ?_ ?_ (fun field hmem => (hfield field hmem).1)
      (Members.keys_pick_sublist positionKeys members), fun c hc => ?_⟩
    · rw [hfieldKeys]
      exact hkeys.sublist (List.filter_sublist.map _)
    · rw [hfieldKeys]
      intro key hkey
      obtain ⟨m, hm, rfl⟩ := List.mem_map.1 hkey
      exact (List.mem_filter.1 hm).2
    · obtain ⟨field, hmem, hc⟩ := List.mem_flatMap.1 hc
      exact (hfield field hmem).2 c hc

/-- A slot that is read is regular, and so are the nodes in it and below. -/
theorem Slot.isRegularTree_of_ofJson {j : Json} {s : Slot} (hdistinct : j.Distinct)
    (hread : Slot.ofJson j = .ok s) : s.IsRegularTree := by
  induction j using Json.induction_on_parts generalizing s with
  | step j ih =>
    rcases j with _ | b | n | text | items | members
    case array =>
      rw [ofJson, map_eq_ok] at hread
      obtain ⟨ss, hss, rfl⟩ := hread
      rw [ofItems_eq] at hss
      have hitems : ∀ s ∈ ss, s.IsRegularTree := fun s hs => by
        obtain ⟨i, hi, hfirst⟩ := exists_of_mem_mapM hss hs
        exact ih i hi (hdistinct.of_mem_parts hi) hfirst
      refine ⟨.list fun s hs => (hitems s hs).1, fun n hn => ?_⟩
      rw [nodes, listNodes_eq] at hn
      obtain ⟨s, hs, hn⟩ := List.mem_flatMap.1 hn
      exact (hitems s hs).2 n hn
    case object =>
      have hkeys := (Json.distinct_object.1 hdistinct).1
      rw [ofJson_object] at hread
      split at hread
      · obtain ⟨n, hn, rfl⟩ := map_eq_ok.1 hread
        refine ⟨.node n, fun c hc => ?_⟩
        obtain rfl := List.mem_singleton.1 hc
        refine ((Node.ofJson_object_iff hkeys).1 hn).regular hkeys fun key s hs => ?_
        obtain ⟨j, hj, hs⟩ := Members.reads_some.1 hs
        have hmem := Json.mem_parts_object (Members.mem_of_get? hj)
        exact ih j hmem (hdistinct.of_mem_parts hmem) hs
      · rename_i htype
        cases hread
        refine ⟨.data ?_, fun _ hn => absurd hn List.not_mem_nil⟩
        rw [ofJson_object, if_neg htype]
    all_goals
      cases hread
      exact ⟨.data rfl, fun _ hn => absurd hn List.not_mem_nil⟩

/-- The nodes of a tree that is read are regular. -/
theorem Node.regular_of_ofJson {document : Json} (hdistinct : document.Distinct)
    (hread : Node.ofJson document = .ok n) : ∀ m ∈ n.preorder, m.Regular :=
  (Slot.isRegularTree_of_ofJson hdistinct (Slot.ofJson_eq_node hread)).2 n
    (List.mem_singleton_self n)

/-! ## Trees that are written -/

/-- A regular slot that is not for nodes is read back as it was written. -/
theorem Slot.Regular.ofJson_of_plainJson {s : Slot} {j : Json} (h : s.Regular)
    (hwritten : s.plainJson = .ok j) : Slot.ofJson j = .ok s := by
  induction h generalizing j with
  | node n => cases hwritten
  | @list items _ ih =>
    rw [plainJson, map_eq_ok] at hwritten
    obtain ⟨js, hjs, rfl⟩ := hwritten
    rw [plainItems_eq] at hjs
    have hitems := mapM_of_mapM (h := id) hjs fun s hs _ hj => ih s hs hj
    rw [ofJson, ofItems_eq, hitems, List.map_id]
    rfl
  | data h =>
    cases hwritten
    exact h

/-- A regular slot is read back as it was written, if its nodes are. -/
theorem Slot.Regular.ofJson_of_toJson {s : Slot} {j : Json} (h : s.Regular)
    (hnodes : ∀ n ∈ s.nodes, ∀ j, n.toJson = .ok j → Slot.ofJson j = .ok (.node n))
    (hwritten : s.toJson = .ok j) : Slot.ofJson j = .ok s := by
  induction h generalizing j with
  | node n =>
    rw [toJson] at hwritten
    exact hnodes n (List.mem_singleton_self n) j hwritten
  | @list items _ ih =>
    rw [toJson, map_eq_ok] at hwritten
    obtain ⟨js, hjs, rfl⟩ := hwritten
    rw [itemsToJson_eq] at hjs
    have hitems := mapM_of_mapM (h := id) hjs fun s hs _ hj =>
      ih s hs (fun n hn => hnodes n (by
        rw [nodes, listNodes_eq]
        exact List.mem_flatMap.2 ⟨s, hs, hn⟩)) hj
    rw [ofJson, ofItems_eq, hitems, List.map_id]
    rfl
  | data h =>
    cases hwritten
    exact h

/-- Slots under keys are read back as they were written, if each of them is. -/
theorem Slot.mapM_ofMember_of_fieldsToJson {fields : Members Slot} {members : Members Json}
    (h : ∀ field ∈ fields, ∀ j, field.2.toJson = .ok j → Slot.ofJson j = .ok field.2)
    (hwritten : Slot.fieldsToJson fields = .ok members) :
    members.mapM Slot.ofMember = .ok fields := by
  rw [fieldsToJson_eq] at hwritten
  have hread := mapM_of_mapM (g := Slot.ofMember) (h := id) hwritten fun field hfield m hm => by
    obtain ⟨j, hj, rfl⟩ := map_eq_ok.1 hm
    exact map_eq_ok.2 ⟨field.2, h field hfield j hj, rfl⟩
  rwa [List.map_id] at hread

namespace Node

/-- A node of a type with its own constructor is read back with the same extra members. -/
theorem IsExtra.ofJson_object {t : NodeType} {members extra : Members Json}
    {build : Members Json → Node}
    (h : IsExtra t extra) (hmembers : members.keys.Sublist t.keys)
    (hbuilt : Built (("type", .text t.name) :: (members ++ extra))
      (build (extraMembers t (("type", .text t.name) :: (members ++ extra))))) :
    Node.ofJson (Node.object t.name members extra) = .ok (build extra) := by
  have hextra : extraMembers t ((("type", .text t.name) :: members) ++ extra) = extra :=
    h.extraMembers_eq fun key hkey =>
      (List.mem_cons.1 hkey).imp_right fun hkey => hmembers.subset hkey
  rw [List.cons_append] at hextra
  rw [hextra] at hbuilt
  rw [object_eq h hmembers]
  exact (ofJson_object_iff (h.nodup_keys hmembers _)).2 hbuilt

/-- An identifier is read back if its name is. -/
theorem IsExtra.ofJson_identifier {name : Slot} {extra : Members Json} {jname : Json}
    (h : IsExtra .identifier extra) (hname : Slot.ofJson jname = .ok name) :
    Node.ofJson (Node.object NodeType.identifier.name [("name", jname)] extra) =
      .ok (.identifier name extra) := by
  refine h.ofJson_object (.refl _) (.identifier (by simp [Members.get?]) ?_)
  exact Members.reads_some.2 ⟨jname, by simp [Members.get?], hname⟩

/-- A literal is read back, also if its source text has not been written. -/
theorem IsExtra.ofJson_literal {value raw : Json} {extra : Members Json}
    (h : IsExtra .literal extra) :
    Node.ofJson (Node.object NodeType.literal.name
      (("value", value) :: (raw.nonNull?.map fun raw => ("raw", raw)).toList) extra) =
        .ok (.literal value raw extra) := by
  have hsublist : (Members.keys (("value", value) ::
      (raw.nonNull?.map fun raw => ("raw", raw)).toList)).Sublist NodeType.literal.keys := by
    rcases raw <;> simp [Json.nonNull?, Members.keys, NodeType.keys]
  let members := ("type", .text NodeType.literal.name) ::
    (("value", value) :: (raw.nonNull?.map fun raw => ("raw", raw)).toList ++ extra)
  have hraw : (Members.get? "raw" members).getD .null = raw := by
    have hnone : extra.get? "raw" = none :=
      Members.get?_eq_none_iff.2 fun hmem => (h.notMem _ hmem).2 (by decide)
    rcases raw <;> simp [members, Json.nonNull?, Members.get?, hnone]
  have hbuilt := @Built.literal members value (by simp [members, Members.get?])
    (by simp [members, Members.get?])
  rw [hraw] at hbuilt
  exact h.ofJson_object hsublist hbuilt

/-- A node with one operand is read back if its operand and what is said of it are. -/
theorem IsExtra.ofJson_unary {kind : UnaryKind} {operator leading : Slot} {argument : Node}
    {extra : Members Json} {joperator jargument jleading : Json} (h : IsExtra kind.nodeType extra)
    (hoperator : Slot.ofJson joperator = .ok operator)
    (hargument : Slot.ofJson jargument = .ok (.node argument))
    (hleading : Slot.ofJson jleading = .ok leading) :
    Node.ofJson (Node.object kind.nodeType.name
      [("operator", joperator), ("argument", jargument), ("prefix", jleading)] extra) =
        .ok (.unary kind operator argument leading extra) := by
  have horder : kind.nodeType.keys = ["operator", "argument", "prefix"] := by rcases kind <;> rfl
  refine h.ofJson_object (by rw [horder]; exact .refl _) ?_
  exact @Built.unary _ kind operator argument (some leading) (by simp [Members.get?])
    (Members.reads_some.2 ⟨joperator, by simp [Members.get?], hoperator⟩)
    (Members.reads_some.2 ⟨jargument, by simp [Members.get?], hargument⟩)
    (Members.reads_some.2 ⟨jleading, by simp [Members.get?], hleading⟩)

/-- A node with two operands is read back if its operands and its operator are. -/
theorem IsExtra.ofJson_binary {kind : BinaryKind} {operator : Slot} {left right : Node}
    {extra : Members Json} {joperator jleft jright : Json} (h : IsExtra kind.nodeType extra)
    (hoperator : Slot.ofJson joperator = .ok operator)
    (hleft : Slot.ofJson jleft = .ok (.node left))
    (hright : Slot.ofJson jright = .ok (.node right)) :
    Node.ofJson (Node.object kind.nodeType.name
      [("operator", joperator), ("left", jleft), ("right", jright)] extra) =
        .ok (.binary kind operator left right extra) := by
  have horder : kind.nodeType.keys = ["operator", "left", "right"] := by rcases kind <;> rfl
  refine h.ofJson_object (by rw [horder]; exact .refl _) (.binary (by simp [Members.get?]) ?_ ?_ ?_)
  · exact Members.reads_some.2 ⟨joperator, by simp [Members.get?], hoperator⟩
  · exact Members.reads_some.2 ⟨jleft, by simp [Members.get?], hleft⟩
  · exact Members.reads_some.2 ⟨jright, by simp [Members.get?], hright⟩

/-- A call is read back if its callee and its arguments are. -/
theorem IsExtra.ofJson_call {callee : Node} {arguments : Slot} {extra : Members Json}
    {jcallee jarguments : Json} (h : IsExtra .call extra)
    (hcallee : Slot.ofJson jcallee = .ok (.node callee))
    (harguments : Slot.ofJson jarguments = .ok arguments) :
    Node.ofJson (Node.object NodeType.call.name
      [("callee", jcallee), ("arguments", jarguments)] extra) =
        .ok (.call callee arguments extra) := by
  refine h.ofJson_object (.refl _) (.call (by simp [Members.get?]) ?_ ?_)
  · exact Members.reads_some.2 ⟨jcallee, by simp [Members.get?], hcallee⟩
  · exact Members.reads_some.2 ⟨jarguments, by simp [Members.get?], harguments⟩

/-- A node of another type is read back with the fields that its members are read as, and with its
    positions. -/
theorem ofJson_object_other {type : String} {members extra : Members Json} {fields : Members Slot}
    (htype : NodeType.ofName type = .other) (hkeys : members.keys.Nodup)
    (hfieldKeys : ∀ key ∈ members.keys, isFieldKey key = true)
    (hextra : extra.keys.Sublist positionKeys) (hread : members.mapM Slot.ofMember = .ok fields) :
    Node.ofJson (Node.object type members extra) = .ok (.other type fields extra) := by
  have hnodup := nodup_keys_other hkeys hfieldKeys hextra (.text type)
  have hfilter : (("type", .text type) :: (members ++ extra)).filter (fun m => isFieldKey m.1) =
      members := by
    rw [List.filter_cons_of_neg (by simp [isFieldKey]), List.filter_append, List.filter_eq_self.2,
      List.filter_eq_nil_iff.2, List.append_nil]
    · intro m hm
      simp [isFieldKey, hextra.subset (List.mem_map.2 ⟨m, hm, rfl⟩)]
    · intro m hm
      exact hfieldKeys m.1 (List.mem_map.2 ⟨m, hm, rfl⟩)
  have hpositions : positions (("type", .text type) :: (members ++ extra)) = extra := by
    refine (List.filterMap_congr fun key hkey => ?_).trans
      (Members.pick_eq_self (by decide) hextra)
    have htype : ¬"type" = key := fun heq => absurd (heq ▸ hkey) (by decide)
    have hmembers : members.get? key = none :=
      Members.get?_eq_none_iff.2 fun hmem => by simpa [isFieldKey, hkey] using hfieldKeys key hmem
    rw [Members.get?, if_neg htype, Members.get?_append, hmembers, Option.none_or]
  have hbuilt := @Built.other (("type", .text type) :: (members ++ extra)) type fields
    (by simp [Members.get?]) htype (by rw [hfilter]; exact hread)
  rw [hpositions] at hbuilt
  rw [object_of_nodup hnodup]
  exact (ofJson_object_iff hnodup).2 hbuilt

/-- A tree of regular nodes is read back as it was written. -/
theorem ofJson_of_toJson {j : Json} (hregular : ∀ m ∈ n.preorder, m.Regular)
    (hwritten : n.toJson = .ok j) : Node.ofJson j = .ok n := by
  induction n using Node.induction_on_children generalizing j with
  | step n ih =>
    rw [forall_mem_preorder] at hregular
    obtain ⟨hroot, hbelow⟩ := hregular
    have hchild : ∀ c ∈ n.children, ∀ j, c.toJson = .ok j → Slot.ofJson j = .ok (.node c) :=
      fun c hc j hj => Slot.ofJson_eq_node (ih c hc (hbelow c hc) hj)
    rcases hroot with ⟨hname, hextra⟩ | ⟨hextra⟩ | ⟨hoperator, hleading, hextra⟩ |
      ⟨hoperator, hextra⟩ | ⟨harguments, hextra⟩ | ⟨htype, hkeys, hfieldKeys, hfields, hextra⟩
    case identifier =>
      simp only [toJson, bind_eq_ok] at hwritten
      obtain ⟨jname, hjname, ⟨⟩⟩ := hwritten
      exact hextra.ofJson_identifier (hname.ofJson_of_plainJson hjname)
    case literal =>
      rw [toJson_literal_eq, Except.ok.injEq] at hwritten
      subst hwritten
      exact hextra.ofJson_literal
    case unary =>
      simp only [toJson, bind_eq_ok] at hwritten
      obtain ⟨jo, hjo, ja, hja, jl, hjl, ⟨⟩⟩ := hwritten
      exact hextra.ofJson_unary (hoperator.ofJson_of_plainJson hjo)
        (hchild _ (by simp [children]) ja hja) (hleading.ofJson_of_plainJson hjl)
    case binary =>
      simp only [toJson, bind_eq_ok] at hwritten
      obtain ⟨jo, hjo, jl, hjl, jr, hjr, ⟨⟩⟩ := hwritten
      exact hextra.ofJson_binary (hoperator.ofJson_of_plainJson hjo)
        (hchild _ (by simp [children]) jl hjl) (hchild _ (by simp [children]) jr hjr)
    case call =>
      simp only [toJson, bind_eq_ok] at hwritten
      obtain ⟨jc, hjc, ja, hja, ⟨⟩⟩ := hwritten
      exact hextra.ofJson_call (hchild _ (by simp [children]) jc hjc)
        (harguments.ofJson_of_toJson (fun c hc => hchild c (by simp [children, hc])) hja)
    case other =>
      simp only [toJson, bind_eq_ok] at hwritten
      obtain ⟨members, hmembers, ⟨⟩⟩ := hwritten
      have hsame := Slot.keys_of_fieldsToJson hmembers
      rw [← hsame] at hkeys hfieldKeys
      refine ofJson_object_other htype hkeys hfieldKeys hextra ?_
      refine Slot.mapM_ofMember_of_fieldsToJson (fun field hfield j hj => ?_) hmembers
      exact (hfields field hfield).ofJson_of_toJson
        (fun c hc => hchild c (List.mem_flatMap.2 ⟨field, hfield, hc⟩)) hj

end Node

/-! ## When a tree can be written -/

/-- A slot that is not for nodes can be written if there are none in it. -/
theorem Slot.exists_plainJson_iff {s : Slot} : (∃ j, s.plainJson = .ok j) ↔ s.nodes = [] := by
  induction s using induction_on_items with
  | node n => simp [plainJson, nodes]
  | list items ih =>
    have hitems : (∃ j, (Slot.list items).plainJson = .ok j) ↔
        ∃ js, items.mapM plainJson = .ok js := by
      simp [plainJson, map_eq_ok, plainItems_eq]
    rw [hitems, exists_mapM_eq_ok_iff, nodes, listNodes_eq, List.flatMap_eq_nil_iff]
    exact forall₂_congr ih
  | data j => simp [plainJson, nodes]

/-- A slot can be written if its nodes can be. -/
theorem Slot.exists_toJson_iff {s : Slot} :
    (∃ j, s.toJson = .ok j) ↔ ∀ n ∈ s.nodes, ∃ j, n.toJson = .ok j := by
  induction s using induction_on_items with
  | node n => simp [toJson, nodes]
  | list items ih =>
    have hitems : (∃ j, (Slot.list items).toJson = .ok j) ↔ ∃ js, items.mapM toJson = .ok js := by
      simp [toJson, map_eq_ok, itemsToJson_eq]
    rw [hitems, exists_mapM_eq_ok_iff, nodes, listNodes_eq, List.forall_mem_flatMap]
    exact forall₂_congr ih
  | data j => simp [toJson, nodes]

namespace Node

/-- The slots of a node that are not for nodes. -/
def plainSlots : Node → List Slot
  | identifier name _ => [name]
  | unary _ operator _ leading _ => [operator, leading]
  | binary _ operator _ _ _ => [operator]
  | literal _ _ _ | call _ _ _ | other _ _ _ => []

/-- A node holds no nodes where its type has no children. -/
def IsPlain (n : Node) : Prop := ∀ s ∈ n.plainSlots, s.nodes = []

/-- A node can be written if its children can be, and it holds no nodes elsewhere. -/
theorem exists_toJson_iff_children (n : Node) :
    (∃ j, n.toJson = .ok j) ↔ n.IsPlain ∧ ∀ c ∈ n.children, ∃ j, c.toJson = .ok j := by
  rcases n with ⟨name, extra⟩ | ⟨value, raw, extra⟩ | ⟨kind, operator, argument, leading, extra⟩ |
    ⟨kind, operator, left, right, extra⟩ | ⟨callee, arguments, extra⟩ | ⟨type, fields, extra⟩
  case identifier =>
    simp [toJson, bind_eq_ok, pure, Except.pure, IsPlain, plainSlots, children,
      ← Slot.exists_plainJson_iff]
  case literal => simp [toJson, IsPlain, plainSlots, children]
  case unary =>
    simp [toJson, bind_eq_ok, pure, Except.pure, IsPlain, plainSlots, children,
      ← Slot.exists_plainJson_iff]
    tauto
  case binary =>
    simp [toJson, bind_eq_ok, pure, Except.pure, IsPlain, plainSlots, children,
      ← Slot.exists_plainJson_iff]
  case call =>
    simp [toJson, bind_eq_ok, pure, Except.pure, IsPlain, plainSlots, children,
      ← Slot.exists_toJson_iff]
  case other =>
    have hfields : (∃ j, (Node.other type fields extra).toJson = .ok j) ↔
        ∃ members, fields.mapM Slot.toMember = .ok members := by
      simp [toJson, bind_eq_ok, Slot.fieldsToJson_eq, pure, Except.pure]
    have hfield : ∀ field ∈ fields, (∃ m, Slot.toMember field = .ok m) ↔
        ∀ n ∈ field.2.nodes, ∃ j, n.toJson = .ok j := fun field _ => by
      simp [Slot.toMember, map_eq_ok, ← Slot.exists_toJson_iff]
    rw [hfields, exists_mapM_eq_ok_iff, children, Slot.fieldNodes, List.forall_mem_flatMap,
      forall₂_congr hfield]
    simp [IsPlain, plainSlots]

/-- A tree can be written if no node stands where its parent has no child. -/
theorem exists_toJson_iff (n : Node) :
    (∃ j, n.toJson = .ok j) ↔ ∀ m ∈ n.preorder, m.IsPlain := by
  induction n using Node.induction_on_children with
  | step n ih =>
    rw [exists_toJson_iff_children, forall_mem_preorder]
    exact and_congr_right fun _ => forall₂_congr ih

end Node

end TaintWeave
