import TaintWeave.Proofs.Node.NormalForm
import TaintWeave.Proofs.Node.Reading
import TaintWeave.Proofs.Node.Writing

/-!
# From documents to trees and back

A document that is read as a tree and written again is brought into normal form. So nothing is lost:
what the tree does not need is kept as extra members or as data, and what is written besides is what
the type of a node has by default.

* `Slot.plainJson_of_ofJson`: a value without nodes is written as it was read.
* `Node.toJson_of_built`: a node is written in normal form, if the values that it searches are.
* `Node.toJson_ofJson`: a document is written in normal form.
-/

namespace TaintWeave

/-! ## Values without nodes -/

/-- A value without nodes is written as it was read, where no nodes are expected. -/
theorem Slot.plainJson_of_ofJson {j : Json} {s : Slot} (hnodes : j.nodes = [])
    (hread : Slot.ofJson j = .ok s) : s.plainJson = .ok j := by
  induction j using Json.induction_on_parts generalizing s with
  | step j ih =>
    rcases j with _ | b | n | text | items | members
    case array =>
      rw [Json.nodes_array_eq_nil_iff] at hnodes
      rw [ofJson, map_eq_ok] at hread
      obtain ⟨ss, hss, rfl⟩ := hread
      rw [ofItems_eq] at hss
      rw [plainJson, map_eq_ok]
      refine ⟨items, ?_, rfl⟩
      have hitems := mapM_of_mapM (h := id) hss fun i hi _ hs => ih i hi (hnodes i hi) hs
      rw [plainItems_eq, hitems, List.map_id]
    case object =>
      rw [Json.nodes_object_eq_nil_iff] at hnodes
      rw [ofJson_object, hnodes] at hread
      cases hread
      rfl
    all_goals
      cases hread
      rfl

/-! ## Nodes -/

variable {members : Members Json} {t : NodeType}

namespace Json

/-- Members that are not searched are picked as they are. -/
theorem pick_normalMembers {order : List String} (h : ∀ key ∈ order, t.searches key = false) :
    (normalMembers t members).pick order = members.pick order := by
  refine List.filterMap_congr fun key hkey => ?_
  rw [get?_normalMembers, h key hkey]
  simp only [Bool.false_eq_true, if_false, Option.map_id']

/-- Members that are not searched are chosen as they are. -/
theorem filter_normalMembers {p : String → Bool}
    (h : ∀ key, p key = true → t.searches key = false) :
    (normalMembers t members).filter (fun m => p m.1) = members.filter fun m => p m.1 := by
  rw [normalMembers_eq, List.filter_map]
  refine (List.map_congr_left fun m hm => ?_).trans (List.map_id _)
  have hkey : p m.1 = true := (List.mem_filter.1 hm).2
  rw [h m.1 hkey]
  rfl

/-- Members that a type does not model are not searched. -/
theorem extraMembers_normalMembers (ht : t ≠ .other) :
    Node.extraMembers t (normalMembers t members) = Node.extraMembers t members := by
  refine filter_normalMembers (p := fun key => key != "type" && !t.keys.contains key)
    fun key hkey => ?_
  rw [Bool.and_eq_true, Bool.not_eq_true'] at hkey
  rcases t
  case other => exact absurd rfl ht
  case literal => rfl
  all_goals exact hkey.2

end Json

/-- In a completed node with one operand, the prefix is what it was, or the default. -/
theorem UnaryKind.get?_complete (kind : UnaryKind) (members : Members Json) (key : String) :
    (kind.nodeType.complete members).get? key =
      if key = "prefix" then some ((members.get? "prefix").getD (.boolean (kind == .unary)))
      else members.get? key := by
  rcases hleads : members.get? "prefix" with _ | value
  · have hcomplete : kind.nodeType.complete members =
        members ++ [("prefix", .boolean (kind == .unary))] := by
      rcases kind <;> simp [nodeType, NodeType.complete, Members.hasKey_eq_isSome, hleads]
    rw [hcomplete, Members.get?_append]
    by_cases hkey : key = "prefix"
    · simp [hkey, hleads, Members.get?]
    · simp [hkey, Ne.symm hkey, Members.get?]
  · have hcomplete : kind.nodeType.complete members = members := by
      rcases kind <;> simp [nodeType, NodeType.complete, Members.hasKey_eq_isSome, hleads]
    rw [hcomplete]
    by_cases hkey : key = "prefix"
    · simp [hkey, hleads]
    · simp [hkey]

/-- In a completed literal, the source text is what it was, unless it is null. -/
theorem NodeType.get?_complete_literal (members : Members Json) (key : String) :
    (NodeType.literal.complete members).get? key =
      if key = "raw" then (members.get? "raw").bind Json.nonNull? else members.get? key := by
  rw [complete]
  split
  · rename_i hraw
    rw [Members.get?_filter fun key => key != "raw"]
    by_cases hkey : key = "raw"
    · simp [hkey, hraw, Json.nonNull?]
    · simp [hkey]
  · rename_i hraw
    by_cases hkey : key = "raw"
    · subst hkey
      rcases hget : members.get? "raw" with _ | _ | _ | _ | _ | _ | _
      case some.null => exact absurd hget hraw
      all_goals simp [Json.nonNull?]
    · simp [hkey]

namespace Node

/-- A node of a type with its own constructor is written in normal form, if the members that it
    models are. -/
theorem object_eq_normal (ht : t ≠ .other) (hkeys : members.keys.Nodup) {modelled : Members Json}
    (hmodelled : (t.complete (Json.normalMembers t members)).pick ("type" :: t.keys) =
      ("type", .text t.name) :: modelled) :
    Node.object t.name modelled (extraMembers t members) =
      t.object (Json.normalMembers t members) := by
  have hsublist : modelled.keys.Sublist t.keys := by
    have := Members.keys_pick_sublist ("type" :: t.keys)
      (t.complete (Json.normalMembers t members))
    rw [hmodelled] at this
    exact List.cons_sublist_cons.1 this
  rw [object_eq (isExtra_extraMembers hkeys t) hsublist, NodeType.object,
    NodeType.arrange_of_ne_other ht, hmodelled, NodeType.extraMembers_complete,
    Json.extraMembers_normalMembers ht, List.cons_append]

/-- A slot that is not for nodes is written as the value in normal form, if there are no nodes. -/
theorem exists_plainJson {key : String} {s : Slot} (hread : members.Reads key (some s))
    (hplain : ∀ j, members.get? key = some j → j.nodes = []) :
    ∃ j, (Json.normalMembers t members).get? key = some j ∧ s.plainJson = .ok j := by
  obtain ⟨j, hj, hs⟩ := Members.reads_some.1 hread
  refine ⟨j, ?_, Slot.plainJson_of_ofJson (hplain j hj) hs⟩
  rw [Json.get?_normalMembers, hj, Option.map_some, Json.normal_eq_self (hplain j hj), ite_self]

/-- A slot that may hold nodes is written as the value in normal form. -/
theorem exists_toJson {key : String} {s : Slot} (hread : members.Reads key (some s))
    (hkey : t.searches key = true)
    (hwritten : ∀ j s, members.get? key = some j → Slot.ofJson j = .ok s →
      s.toJson = .ok j.normal) :
    ∃ j, (Json.normalMembers t members).get? key = some j ∧ s.toJson = .ok j := by
  obtain ⟨j, hj, hs⟩ := Members.reads_some.1 hread
  refine ⟨j.normal, ?_, hwritten j s hj hs⟩
  rw [Json.get?_normalMembers, hj, Option.map_some, if_pos hkey]

/-- The place of an operator is written as the value in normal form, or as the default. -/
theorem plainJson_leading {kind : UnaryKind} {leading : Option Slot}
    (hread : members.Reads "prefix" leading)
    (hplain : ∀ j, members.get? "prefix" = some j → j.nodes = []) :
    (leading.getD (.data (.boolean (kind == .unary)))).plainJson =
      .ok (((Json.normalMembers kind.nodeType members).get? "prefix").getD
        (.boolean (kind == .unary))) := by
  rcases leading with _ | s
  · rw [Members.reads_none] at hread
    simp [Json.get?_normalMembers, hread, Slot.plainJson]
  · obtain ⟨j, hj, hs⟩ := exists_plainJson (t := kind.nodeType) hread hplain
    rw [hj]
    exact hs

/-! ### One type each -/

/-- The type of a node in normal form is what it was. -/
theorem get?_type_normalMembers {name : String} (t : NodeType)
    (htype : members.get? "type" = some (.text name)) :
    (Json.normalMembers t members).get? "type" = some (.text name) := by
  rw [Json.get?_normalMembers, htype, Option.map_some, Json.normal_eq_self rfl, ite_self]

/-- An identifier is written in normal form. -/
theorem toJson_identifier {name : Slot} (hkeys : members.keys.Nodup)
    (htype : members.get? "type" = some (.text NodeType.identifier.name))
    (hname : members.Reads "name" (some name))
    (hplain : ∀ j, members.get? "name" = some j → j.nodes = []) :
    (Node.identifier name (extraMembers .identifier members)).toJson =
      .ok (NodeType.identifier.object (Json.normalMembers .identifier members)) := by
  obtain ⟨j, hj, hs⟩ := exists_plainJson (t := .identifier) hname hplain
  simp only [toJson, hs]
  refine congrArg Except.ok (object_eq_normal (t := .identifier) nofun hkeys ?_)
  simp [NodeType.keys, NodeType.complete, get?_type_normalMembers _ htype, hj]

/-- A literal is written in normal form. -/
theorem toJson_literal {value : Json} (hkeys : members.keys.Nodup)
    (htype : members.get? "type" = some (.text NodeType.literal.name))
    (hvalue : members.get? "value" = some value) :
    (Node.literal value ((members.get? "raw").getD .null) (extraMembers .literal members)).toJson =
      .ok (NodeType.literal.object (Json.normalMembers .literal members)) := by
  have hfound : ∀ key, (Json.normalMembers .literal members).get? key = members.get? key := by
    simp [Json.get?_normalMembers, NodeType.searches]
  have hraw : ((members.get? "raw").getD .null).nonNull? =
      (members.get? "raw").bind Json.nonNull? := by
    rcases members.get? "raw" with _ | j <;> rfl
  rw [toJson_literal_eq]
  refine congrArg Except.ok (object_eq_normal (t := .literal) (by decide) hkeys ?_)
  simp [NodeType.keys, NodeType.get?_complete_literal, hfound, htype, hvalue, hraw]

/-- A node with one operand is written in normal form, if the operand is. -/
theorem toJson_unary {kind : UnaryKind} {operator : Slot} {argument : Node} {leading : Option Slot}
    (hkeys : members.keys.Nodup)
    (htype : members.get? "type" = some (.text kind.nodeType.name))
    (hoperator : members.Reads "operator" (some operator))
    (hargument : members.Reads "argument" (some (.node argument)))
    (hleading : members.Reads "prefix" leading)
    (hplain : ∀ key ∈ kind.nodeType.plainKeys, ∀ j, members.get? key = some j → j.nodes = [])
    (hwritten : ∀ j s, members.get? "argument" = some j → Slot.ofJson j = .ok s →
      s.toJson = .ok j.normal) :
    (Node.unary kind operator argument (leading.getD (.data (.boolean (kind == .unary))))
        (extraMembers kind.nodeType members)).toJson =
      .ok (kind.nodeType.object (Json.normalMembers kind.nodeType members)) := by
  have ht : kind.nodeType ≠ .other := by rcases kind <;> nofun
  have horder : kind.nodeType.keys = ["operator", "argument", "prefix"] := by rcases kind <;> rfl
  have hplainKeys : kind.nodeType.plainKeys = ["operator", "prefix"] := by rcases kind <;> rfl
  have hsearches : kind.nodeType.searches "argument" = true := by rcases kind <;> decide
  rw [hplainKeys, List.forall_mem_cons, List.forall_mem_singleton] at hplain
  obtain ⟨j, hj, hs⟩ := exists_plainJson (t := kind.nodeType) hoperator hplain.1
  obtain ⟨a, ha, has⟩ := exists_toJson hargument hsearches hwritten
  rw [Slot.toJson] at has
  simp only [toJson, hs, has, plainJson_leading hleading hplain.2]
  refine congrArg Except.ok (object_eq_normal ht hkeys ?_)
  simp [horder, UnaryKind.get?_complete, get?_type_normalMembers _ htype, hj, ha]

/-- A node with two operands is written in normal form, if the operands are. -/
theorem toJson_binary {kind : BinaryKind} {operator : Slot} {left right : Node}
    (hkeys : members.keys.Nodup)
    (htype : members.get? "type" = some (.text kind.nodeType.name))
    (hoperator : members.Reads "operator" (some operator))
    (hleft : members.Reads "left" (some (.node left)))
    (hright : members.Reads "right" (some (.node right)))
    (hplain : ∀ key ∈ kind.nodeType.plainKeys, ∀ j, members.get? key = some j → j.nodes = [])
    (hwritten : ∀ key, kind.nodeType.searches key = true → ∀ j s, members.get? key = some j →
      Slot.ofJson j = .ok s → s.toJson = .ok j.normal) :
    (Node.binary kind operator left right (extraMembers kind.nodeType members)).toJson =
      .ok (kind.nodeType.object (Json.normalMembers kind.nodeType members)) := by
  have ht : kind.nodeType ≠ .other := by rcases kind <;> nofun
  have horder : kind.nodeType.keys = ["operator", "left", "right"] := by rcases kind <;> rfl
  have hplainKeys : "operator" ∈ kind.nodeType.plainKeys := by rcases kind <;> decide
  have hcomplete : ∀ ms, kind.nodeType.complete ms = ms := by rcases kind <;> exact fun _ => rfl
  have hsearchesLeft : kind.nodeType.searches "left" = true := by rcases kind <;> decide
  have hsearchesRight : kind.nodeType.searches "right" = true := by rcases kind <;> decide
  obtain ⟨j, hj, hs⟩ := exists_plainJson (t := kind.nodeType) hoperator (hplain _ hplainKeys)
  obtain ⟨l, hl, hls⟩ := exists_toJson hleft hsearchesLeft (hwritten _ hsearchesLeft)
  obtain ⟨r, hr, hrs⟩ := exists_toJson hright hsearchesRight (hwritten _ hsearchesRight)
  rw [Slot.toJson] at hls hrs
  simp only [toJson, hs, hls, hrs]
  refine congrArg Except.ok (object_eq_normal ht hkeys ?_)
  simp [horder, hcomplete, get?_type_normalMembers _ htype, hj, hl, hr]

/-- A call is written in normal form, if what is called and the arguments are. -/
theorem toJson_call {callee : Node} {arguments : Slot} (hkeys : members.keys.Nodup)
    (htype : members.get? "type" = some (.text NodeType.call.name))
    (hcallee : members.Reads "callee" (some (.node callee)))
    (harguments : members.Reads "arguments" (some arguments))
    (hwritten : ∀ key, NodeType.call.searches key = true → ∀ j s, members.get? key = some j →
      Slot.ofJson j = .ok s → s.toJson = .ok j.normal) :
    (Node.call callee arguments (extraMembers .call members)).toJson =
      .ok (NodeType.call.object (Json.normalMembers .call members)) := by
  obtain ⟨c, hc, hcs⟩ := exists_toJson (t := .call) hcallee (by decide) (hwritten _ (by decide))
  obtain ⟨a, ha, has⟩ := exists_toJson (t := .call) harguments (by decide) (hwritten _ (by decide))
  rw [Slot.toJson] at hcs
  simp only [toJson, hcs, has]
  refine congrArg Except.ok (object_eq_normal (t := .call) nofun hkeys ?_)
  simp [NodeType.keys, NodeType.complete, get?_type_normalMembers _ htype, hc, ha]

/-- The fields of a node of another type are written in normal form, if their values are. -/
theorem fieldsToJson_eq_normal {fields : Members Slot} (hkeys : members.keys.Nodup)
    (hfields : (members.filter fun m => isFieldKey m.1).mapM Slot.ofMember = .ok fields)
    (hwritten : ∀ key, isFieldKey key = true → ∀ j s, members.get? key = some j →
      Slot.ofJson j = .ok s → s.toJson = .ok j.normal) :
    Slot.fieldsToJson fields =
      .ok ((Json.normalMembers .other members).filter fun m => isFieldKey m.1) := by
  have hmap : (members.filter fun m => isFieldKey m.1).map (fun m => (m.1, m.2.normal)) =
      (Json.normalMembers .other members).filter fun m => isFieldKey m.1 := by
    rw [Json.normalMembers_eq, List.filter_map]
    refine List.map_congr_left fun m hm => ?_
    have hkey : isFieldKey m.1 = true := (List.mem_filter.1 hm).2
    rw [NodeType.searches, if_pos hkey]
  rw [Slot.fieldsToJson_eq, ← hmap]
  refine mapM_of_mapM hfields fun m hm field hfield => ?_
  obtain ⟨hmem, hkey⟩ := List.mem_filter.1 hm
  obtain ⟨s, hs, rfl⟩ := map_eq_ok.1 hfield
  exact map_eq_ok.2 ⟨_, hwritten m.1 hkey m.2 s (Members.get?_of_mem hkeys hmem) hs, rfl⟩

/-- A node of another type is written in normal form, if its fields are. -/
theorem toJson_other {type : String} {fields : Members Slot} (hkeys : members.keys.Nodup)
    (htype : members.get? "type" = some (.text type))
    (hfields : (members.filter fun m => isFieldKey m.1).mapM Slot.ofMember = .ok fields)
    (hwritten : ∀ key, isFieldKey key = true → ∀ j s, members.get? key = some j →
      Slot.ofJson j = .ok s → s.toJson = .ok j.normal) :
    (Node.other type fields (positions members)).toJson =
      .ok (NodeType.other.object (Json.normalMembers .other members)) := by
  have hnodup : (Json.normalMembers .other members).keys.Nodup := by
    rwa [Json.keys_normalMembers]
  simp only [toJson, fieldsToJson_eq_normal hkeys hfields hwritten]
  refine congrArg Except.ok ?_
  have hpositions : (Json.normalMembers .other members).pick positionKeys = positions members :=
    Json.pick_normalMembers (by decide)
  have hextra : (positions members).keys.Sublist positionKeys := Members.keys_pick_sublist _ members
  rw [object_of_nodup (nodup_keys_other (hnodup.sublist (List.filter_sublist.map _)) ?_ hextra _)]
  · simp [NodeType.object, NodeType.arrange, NodeType.complete, hpositions,
      get?_type_normalMembers _ htype]
  · rintro key hkey
    obtain ⟨m, hm, rfl⟩ := List.mem_map.1 hkey
    exact (List.mem_filter.1 hm).2

/-- The object of a node is written in normal form, if the values that it searches are, and no nodes
    stand in the wrong places. -/
theorem toJson_of_built {n : Node} (hbuilt : Built members n) (hkeys : members.keys.Nodup)
    (hplain : ∀ key ∈ members.nodeType.plainKeys, ∀ j, members.get? key = some j → j.nodes = [])
    (hwritten : ∀ key, members.nodeType.searches key = true → ∀ j s, members.get? key = some j →
      Slot.ofJson j = .ok s → s.toJson = .ok j.normal) :
    n.toJson =
      .ok (members.nodeType.object (Json.normalMembers members.nodeType members)) := by
  have hnodeType : ∀ t : NodeType, t ≠ .other → members.get? "type" = some (.text t.name) →
      members.nodeType = t := fun t ht htype => by
    simp [Members.nodeType, htype, NodeType.ofName_name ht]
  rcases hbuilt with ⟨htype, hname⟩ | ⟨htype, hvalue⟩ | ⟨htype, hoperator, hargument, hleading⟩ |
    ⟨htype, hoperator, hleft, hright⟩ | ⟨htype, hcallee, harguments⟩ | ⟨htype, hname, hfields⟩
  case identifier =>
    rw [hnodeType .identifier nofun htype] at hplain ⊢
    exact toJson_identifier hkeys htype hname (hplain "name" (by decide))
  case literal =>
    rw [hnodeType .literal nofun htype]
    exact toJson_literal hkeys htype hvalue
  case unary kind _ _ _ =>
    rw [hnodeType kind.nodeType (by rcases kind <;> nofun) htype] at hplain hwritten ⊢
    have hsearches : kind.nodeType.searches "argument" = true := by rcases kind <;> decide
    exact toJson_unary hkeys htype hoperator hargument hleading hplain (hwritten _ hsearches)
  case binary kind _ _ _ =>
    rw [hnodeType kind.nodeType (by rcases kind <;> nofun) htype] at hplain hwritten ⊢
    exact toJson_binary hkeys htype hoperator hleft hright hplain hwritten
  case call =>
    rw [hnodeType .call nofun htype] at hwritten ⊢
    exact toJson_call hkeys htype hcallee harguments hwritten
  case other type fields =>
    have hother : members.nodeType = .other := by simp [Members.nodeType, htype, hname]
    rw [hother] at hwritten ⊢
    exact toJson_other hkeys htype hfields hwritten

end Node

/-! ## Documents -/

/-- A value under a key of a node is written in normal form. -/
theorem Slot.toJson_eq_normal {j : Json} {s : Slot} (hdistinct : j.Distinct) (hplace : j.InPlace)
    (hread : Slot.ofJson j = .ok s) : s.toJson = .ok j.normal := by
  induction j using Json.induction_on_parts generalizing s with
  | step j ih =>
    rcases j with _ | b | n | text | items | members
    case array =>
      rw [ofJson, map_eq_ok] at hread
      obtain ⟨ss, hss, rfl⟩ := hread
      rw [ofItems_eq] at hss
      have hitems := mapM_of_mapM hss fun i hi _ hs => ih i hi (hdistinct.of_mem_parts hi)
        (fun node hnode => hplace node (Json.nodes_subset_of_mem_array hi hnode)) hs
      rw [toJson, itemsToJson_eq, hitems, Json.normal, Json.normalItems_eq]
      rfl
    case object =>
      rw [ofJson_object] at hread
      split at hread
      · rename_i htype
        obtain ⟨n, hn, rfl⟩ := map_eq_ok.1 hread
        have hkeys := (Json.distinct_object.1 hdistinct).1
        rw [toJson, Json.normal_object htype]
        refine Node.toJson_of_built ((Node.ofJson_object_iff hkeys).1 hn) hkeys
          (hplace members (Json.mem_nodes_object htype)) fun key hkey j s hj hs => ?_
        have hmem := Json.mem_parts_object (Members.mem_of_get? hj)
        exact ih j hmem (hdistinct.of_mem_parts hmem) (fun node hnode =>
          hplace node (Json.nodes_subset_of_searches htype hj hkey hnode)) hs
      · rename_i htype
        cases hread
        rw [toJson, Json.normal, if_neg htype]
    all_goals
      cases hread
      rfl

/-- A document that is read as a tree, and has no node where its parent has no child, is written in
    normal form. It is the same document, up to the order of keys, if it leaves nothing to a
    default: no prefix is absent, and no source text of a literal is null. The documents that are
    read from text have different keys (`Json.distinct_of_read`). -/
theorem Node.toJson_ofJson {document : Json} {n : Node} (hdistinct : document.Distinct)
    (hplace : document.InPlace) (hread : Node.ofJson document = .ok n) :
    n.toJson = .ok document.normal ∧ (document.Explicit → Json.Same document.normal document) := by
  refine ⟨?_, Json.same_normal hdistinct⟩
  rw [← Slot.toJson_eq_normal hdistinct hplace (Slot.ofJson_eq_node hread), Slot.toJson]

/-- The statement `-{"type": "x"}`, where the operand is a literal with an object as its value, and
    the keys are not in order. What looks like a node in the value of the literal is data. -/
theorem Node.toJson_ofJson_negation :
    ∃ document n,
      document = Json.object [("end", .number (.int 3)), ("expression", .object
        [("start", .number (.int 0)), ("prefix", .boolean true), ("argument", .object
          [("value", .object [("type", .text "x")]), ("type", .text "Literal")]),
         ("type", .text "UnaryExpression"), ("operator", .text "-")]),
        ("type", .text "ExpressionStatement")] ∧
      document.Distinct ∧ document.InPlace ∧ document.Explicit ∧ Node.ofJson document = .ok n ∧
      n.toJson = .ok (.object [("type", .text "ExpressionStatement"), ("expression", .object
        [("type", .text "UnaryExpression"), ("operator", .text "-"), ("argument", .object
          [("type", .text "Literal"), ("value", .object [("type", .text "x")])]),
         ("prefix", .boolean true), ("start", .number (.int 0))]),
        ("end", .number (.int 3))]) ∧
      Json.Same document.normal document := by
  let document := Json.object [("end", .number (.int 3)), ("expression", .object
    [("start", .number (.int 0)), ("prefix", .boolean true), ("argument", .object
      [("value", .object [("type", .text "x")]), ("type", .text "Literal")]),
     ("type", .text "UnaryExpression"), ("operator", .text "-")]),
    ("type", .text "ExpressionStatement")]
  have hdistinct : document.Distinct := by decide
  have hplace : document.InPlace := by decide
  have hexplicit : document.Explicit := by decide
  obtain ⟨n, hn⟩ : ∃ n, Node.ofJson document = .ok n := ⟨_, rfl⟩
  obtain ⟨hnormal, hsame⟩ := Node.toJson_ofJson hdistinct hplace hn
  exact ⟨document, n, rfl, hdistinct, hplace, hexplicit, hn, hnormal, hsame hexplicit⟩

end TaintWeave
