import TaintWeave.Node.Document
import TaintWeave.Proofs.Arrangement
import TaintWeave.Proofs.Json.Distinct

/-!
# The normal form of a document

What a document says about a tree does not depend on the order of its keys, nor on what it leaves
out because the type of a node has a default for it. In *normal form* the order is fixed and the
defaults are in place, in all objects that stand for nodes.

* `Json.nodes`: the objects that stand for nodes. The values that a type does not search are data.
* `Json.InPlace`: no node stands where its parent has no child.
* `Json.normal`: the normal form, with the members of every node completed (`NodeType.complete`) and
  arranged (`NodeType.arrange`).
* `Json.Same`: equality up to the order of keys. A document is the same as its normal form if it
  leaves nothing to a default (`Json.same_normal`).
-/

namespace TaintWeave

/-! ## Nodes of a document -/

/-- The type of the node that an object stands for, by the name under `type`. -/
def Members.nodeType (members : Members Json) : NodeType :=
  match members.get? "type" with
  | some (.text name) => NodeType.ofName name
  | _ => .other

/-- Whether a type searches the value under a key for nodes. -/
def NodeType.searches : NodeType → String → Bool
  | literal, _ => false
  | other, key => Node.isFieldKey key
  | t, key => t.keys.contains key

/-- The keys that a type searches although it has no child there. -/
def NodeType.plainKeys : NodeType → List String
  | identifier => ["name"]
  | unary | update => ["operator", "prefix"]
  | binary | logical => ["operator"]
  | literal | call | other => []

namespace Json

mutual

/-- The objects in a document that stand for nodes. -/
def nodes : Json → List (Members Json)
  | array items => itemNodes items
  | object members =>
    if Members.hasKey "type" members then members :: memberNodes (Members.nodeType members) members
    else []
  | _ => []

/-- The objects in the items of an array that stand for nodes. -/
def itemNodes : List Json → List (Members Json)
  | [] => []
  | j :: js => nodes j ++ itemNodes js

/-- The objects that stand for nodes in the members that a type searches. -/
def memberNodes (t : NodeType) : List (String × Json) → List (Members Json)
  | [] => []
  | (k, j) :: rest => (if t.searches k then nodes j else []) ++ memberNodes t rest

end

/-- No node stands where its parent has no child. -/
def InPlace (j : Json) : Prop :=
  ∀ members ∈ j.nodes, ∀ key ∈ members.nodeType.plainKeys,
    ∀ value, members.get? key = some value → value.nodes = []

/-- No prefix is absent, and no source text is null. -/
def Explicit (j : Json) : Prop :=
  ∀ members ∈ j.nodes,
    (members.nodeType = .unary ∨ members.nodeType = .update → members.hasKey "prefix" = true) ∧
    (members.nodeType = .literal → members.get? "raw" ≠ some .null)

instance (j : Json) : Decidable j.InPlace :=
  decidable_of_iff (∀ members ∈ j.nodes, ∀ key ∈ members.nodeType.plainKeys,
    (members.get? key).all (fun value => value.nodes.isEmpty) = true)
    (by simp only [InPlace, Option.all_eq_true, List.isEmpty_iff])

instance : (value : Option Json) → Decidable (value = some .null)
  | some .null => .isTrue rfl
  | none | some (.boolean _) | some (.number _) | some (.text _) | some (.array _)
  | some (.object _) => .isFalse nofun

instance (j : Json) : Decidable j.Explicit :=
  inferInstanceAs (Decidable (∀ members ∈ j.nodes,
    (members.nodeType = .unary ∨ members.nodeType = .update → members.hasKey "prefix" = true) ∧
    (members.nodeType = .literal → members.get? "raw" ≠ some .null)))

end Json

/-! ## The normal form -/

namespace NodeType

/-- The members of a node with what its type adds or leaves out by default. -/
def complete : NodeType → Members Json → Members Json
  | unary, members =>
    if members.hasKey "prefix" then members else members ++ [("prefix", .boolean true)]
  | update, members =>
    if members.hasKey "prefix" then members else members ++ [("prefix", .boolean false)]
  | literal, members =>
    match members.get? "raw" with
    | some .null => members.filter fun m => m.1 != "raw"
    | _ => members
  | _, members => members

/-- The members of a node in order. The type comes first. What a type models follows, in its order,
    and then all else; a type without a constructor of its own has its positions last. -/
def arrange : NodeType → Members Json → Members Json
  | other, members =>
    members.pick ["type"] ++ members.filter (fun m => Node.isFieldKey m.1) ++
      members.pick positionKeys
  | t, members => members.pick ("type" :: t.keys) ++ Node.extraMembers t members

/-- The object of a node, completed and arranged. -/
def object (t : NodeType) (members : Members Json) : Json :=
  .object (t.arrange (t.complete members))

end NodeType

namespace Json

mutual

/-- The normal form of a document. -/
def normal : Json → Json
  | array items => array (normalItems items)
  | object members =>
    if Members.hasKey "type" members then
      (Members.nodeType members).object (normalMembers (Members.nodeType members) members)
    else object members
  | j => j

/-- The items of an array in normal form. -/
def normalItems : List Json → List Json
  | [] => []
  | j :: js => normal j :: normalItems js

/-- The members of a node, with the values in normal form that its type searches. -/
def normalMembers (t : NodeType) : List (String × Json) → Members Json
  | [] => []
  | (k, j) :: rest => (k, if t.searches k then normal j else j) :: normalMembers t rest

end

/-- Documents that are equal up to the order of keys. -/
inductive Same : Json → Json → Prop
  | refl (j : Json) : Same j j
  | array {items items' : List Json} (h : List.Forall₂ Same items items') :
      Same (array items) (array items')
  | object {members members' : Members Json} (keys : members.keys.Perm members'.keys)
      (values : ∀ key j j', members.get? key = some j → members'.get? key = some j' → Same j j') :
      Same (object members) (object members')

end Json

/-! ## Nodes by the parts of a document -/

namespace Json

variable {members : Members Json}

/-- The nodes in the items of an array are those in one of them. -/
theorem itemNodes_eq (items : List Json) : itemNodes items = items.flatMap nodes := by
  induction items with
  | nil => simp [itemNodes]
  | cons j js ih => simp [itemNodes, ih]

/-- A node in the members of another is one in a value that is searched. -/
theorem mem_memberNodes {t : NodeType} {node : Members Json} :
    node ∈ memberNodes t members ↔ ∃ m ∈ members, t.searches m.1 = true ∧ node ∈ m.2.nodes := by
  induction members with
  | nil => simp [memberNodes]
  | cons m rest ih =>
    obtain ⟨k, j⟩ := m
    by_cases hk : t.searches k = true
    · simp [memberNodes, hk, ih]
    · simp [memberNodes, hk, ih]

/-- The items of an array in normal form, one by one. -/
theorem normalItems_eq (items : List Json) : normalItems items = items.map normal := by
  induction items with
  | nil => simp [normalItems]
  | cons j js ih => simp [normalItems, ih]

/-- The members of a node in normal form, one by one. -/
theorem normalMembers_eq (t : NodeType) (members : Members Json) :
    normalMembers t members =
      members.map fun m => (m.1, if t.searches m.1 then m.2.normal else m.2) := by
  induction members with
  | nil => simp [normalMembers]
  | cons m rest ih => simp [normalMembers, ih]

/-- The items of an array without nodes have none. -/
theorem nodes_array_eq_nil_iff {items : List Json} :
    (array items).nodes = [] ↔ ∀ j ∈ items, j.nodes = [] := by
  rw [nodes, itemNodes_eq, List.flatMap_eq_nil_iff]

/-- An object without nodes is not a node itself. -/
theorem nodes_object_eq_nil_iff :
    (object members).nodes = [] ↔ members.hasKey "type" = false := by
  rw [nodes]
  split
  · simp_all
  · simp_all

/-- The normal form of a node. -/
theorem normal_object (htype : members.hasKey "type" = true) :
    (object members).normal = members.nodeType.object (normalMembers members.nodeType members) := by
  rw [normal, if_pos htype]

/-- The normal form of a document without nodes is the document. -/
theorem normal_eq_self {j : Json} (h : j.nodes = []) : j.normal = j := by
  induction j using induction_on_parts with
  | step j ih =>
    rcases j with _ | b | n | s | items | members
    case array =>
      rw [nodes_array_eq_nil_iff] at h
      have hitems : items.map normal = items :=
        (List.map_congr_left fun i hi => ih i hi (h i hi)).trans (List.map_id _)
      rw [normal, normalItems_eq, hitems]
    case object => simp [normal, nodes_object_eq_nil_iff.1 h]
    all_goals rfl

/-- An item of an array has its nodes among those of the document. -/
theorem nodes_subset_of_mem_array {items : List Json} {j : Json} (hj : j ∈ items) :
    j.nodes ⊆ (array items).nodes := by
  intro node hnode
  rw [nodes, itemNodes_eq]
  exact List.mem_flatMap.2 ⟨j, hj, hnode⟩

/-- A value that the type of a node searches has its nodes among those of the document. -/
theorem nodes_subset_of_searches {key : String} {value : Json}
    (htype : members.hasKey "type" = true)
    (hvalue : members.get? key = some value) (hkey : members.nodeType.searches key = true) :
    value.nodes ⊆ (object members).nodes := by
  intro node hnode
  rw [nodes, if_pos htype, List.mem_cons, mem_memberNodes]
  exact .inr ⟨(key, value), Members.mem_of_get? hvalue, hkey, hnode⟩

/-- A node is among those of the document. -/
theorem mem_nodes_object (htype : members.hasKey "type" = true) :
    members ∈ (object members).nodes := by
  rw [nodes, if_pos htype]
  exact List.mem_cons_self

/-! ## Completed and arranged members -/

/-- What is found under a key in normal form is what was found, in normal form if it is searched. -/
theorem get?_normalMembers (t : NodeType) (key : String) :
    (normalMembers t members).get? key =
      (members.get? key).map fun j => if t.searches key then j.normal else j := by
  rw [normalMembers_eq]
  exact Members.get?_map fun k (j : Json) => if t.searches k then j.normal else j

/-- The keys in normal form are the same, before they are arranged. -/
theorem keys_normalMembers (t : NodeType) (members : Members Json) :
    (normalMembers t members).keys = members.keys := by
  rw [normalMembers_eq]
  exact Members.keys_map fun k (j : Json) => if t.searches k then j.normal else j

end Json

namespace NodeType

variable {t : NodeType} {members : Members Json}

/-- The members of a node of a type with its own constructor: the type, what is modelled, and the
    rest. -/
theorem arrange_of_ne_other (ht : t ≠ .other) (members : Members Json) :
    t.arrange members = members.pick ("type" :: t.keys) ++ Node.extraMembers t members := by
  rcases t
  case other => exact absurd rfl ht
  all_goals rfl

/-- Arranged members are the same members. -/
theorem arrange_perm (t : NodeType) (hkeys : members.keys.Nodup) :
    (t.arrange members).Perm members := by
  by_cases ht : t = .other
  · subst ht
    have horder : ("type" :: positionKeys).Nodup := by decide
    have hrest : members.filter (fun m => Node.isFieldKey m.1) =
        members.filter fun m => !("type" :: positionKeys).contains m.1 := by
      refine List.filter_congr fun m _ => ?_
      by_cases htype : m.1 = "type" <;> simp [Node.isFieldKey, htype]
    rw [arrange, hrest, List.append_assoc]
    refine (List.perm_append_comm.append_left _).trans ?_
    rw [← List.append_assoc, ← Members.pick_append]
    exact Members.pick_append_filter_perm horder hkeys
  · have horder : ("type" :: t.keys).Nodup := by rcases t <;> decide
    have hrest : Node.extraMembers t members =
        members.filter fun m => !("type" :: t.keys).contains m.1 := by
      refine List.filter_congr fun m _ => ?_
      by_cases htype : m.1 = "type" <;> simp [htype]
    rw [arrange_of_ne_other ht, hrest]
    exact Members.pick_append_filter_perm horder hkeys

/-- Nothing is added to the members of a node that leaves nothing to a default. -/
theorem complete_eq_self
    (hleads : t = .unary ∨ t = .update → members.hasKey "prefix" = true)
    (hraw : t = .literal → members.get? "raw" ≠ some .null) : t.complete members = members := by
  rcases t
  case unary => simp [complete, hleads]
  case update => simp [complete, hleads]
  case literal =>
    rw [complete]
    split
    · exact absurd ‹_› (hraw rfl)
    · rfl
  all_goals rfl

/-- The members that a type does not model are left alone. -/
theorem extraMembers_complete (t : NodeType) (members : Members Json) :
    Node.extraMembers t (t.complete members) = Node.extraMembers t members := by
  rcases t
  case unary =>
    rw [complete]
    split
    · rfl
    · simp [Node.extraMembers, keys]
  case update =>
    rw [complete]
    split
    · rfl
    · simp [Node.extraMembers, keys]
  case literal =>
    rw [complete]
    split
    · rw [Node.extraMembers, Node.extraMembers, List.filter_filter]
      refine List.filter_congr fun m _ => ?_
      by_cases hraw : m.1 = "raw"
      · simp [hraw, keys]
      · simp [hraw]
    · rfl
  all_goals rfl

end NodeType

/-! ## Sameness -/

namespace Json

variable {members : Members Json}

/-- Nothing is added to a node in normal form that leaves nothing to a default. -/
theorem complete_normalMembers
    (h : (members.nodeType = .unary ∨ members.nodeType = .update → members.hasKey "prefix" = true) ∧
      (members.nodeType = .literal → members.get? "raw" ≠ some .null)) :
    members.nodeType.complete (normalMembers members.nodeType members) =
      normalMembers members.nodeType members := by
  refine NodeType.complete_eq_self (fun ht => ?_) fun ht => ?_
  · rw [Members.hasKey_iff_mem, keys_normalMembers, ← Members.hasKey_iff_mem]
    exact h.1 ht
  · -- A literal is not searched, so its source text is as it was.
    have := h.2 ht
    rw [get?_normalMembers, ht]
    simpa [NodeType.searches] using this

/-- A document that leaves nothing to a default is the same as its normal form. -/
theorem same_normal {j : Json} (hdistinct : j.Distinct) (hexplicit : j.Explicit) :
    Same j.normal j := by
  induction j using induction_on_parts with
  | step j ih =>
    rcases j with _ | b | n | s | items | members
    case array =>
      rw [normal, normalItems_eq]
      refine .array (List.forall₂_map_left_iff.2 (List.forall₂_same.2 fun i hi => ?_))
      exact ih i hi (hdistinct.of_mem_parts hi) fun node hnode =>
        hexplicit node (nodes_subset_of_mem_array hi hnode)
    case object =>
      by_cases htype : Members.hasKey "type" members = true
      · let t := Members.nodeType members
        have hkeys : (normalMembers t members).keys.Nodup := by
          rw [keys_normalMembers]
          exact (distinct_object.1 hdistinct).1
        have hperm := t.arrange_perm hkeys
        rw [normal_object htype, NodeType.object,
          complete_normalMembers (hexplicit members (mem_nodes_object htype))]
        refine .object ?_ fun key value value' hvalue hvalue' => ?_
        · rw [← keys_normalMembers t members]
          exact hperm.map _
        · rw [Members.get?_eq_of_perm hkeys hperm.symm, get?_normalMembers, hvalue',
            Option.map_some, Option.some.injEq] at hvalue
          subst hvalue
          split
          · rename_i hkey
            exact ih value' (mem_parts_object (Members.mem_of_get? hvalue'))
              (hdistinct.of_mem_parts (mem_parts_object (Members.mem_of_get? hvalue')))
              fun node hnode => hexplicit node (nodes_subset_of_searches htype hvalue' hkey hnode)
          · exact .refl _
      · rw [normal, if_neg htype]
        exact .refl _
    all_goals exact .refl _

end Json

end TaintWeave
