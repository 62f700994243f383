import Mathlib.Data.List.Perm.Basic
import TaintWeave.Node.Basic

/-!
# Trees by their children

The constructors of nodes differ in where they keep their children: in a field, in two, in a slot
or in the slots under keys. What holds of all trees is stated here through `Node.children` and
`Node.mapChildren` alone, so that a proof about a tree need not know where its children are.

* `Slot.induction_on_items`, `Node.induction_on_children`: what passes from the items of a list to
  the list holds of every slot, and what passes from the children to the node of every node.
* `Node.children_mapChildren`, `Node.mapChildren_congr`, `Node.mapChildren_id`,
  `Node.mapChildren_mapChildren`: replaced children.
* `Node.preorder_eq`: a traversal is the node, followed by those of its children.
* `Node.postorder`: the traversal that comes to a node after its children, with the same nodes
  (`Node.mem_postorder_iff`).
* `Node.image`: a tree rebuilt from the leaves up, with a function applied to every rebuilt node
  (`Node.image_eq`).
-/

namespace TaintWeave

/-! ## Slots by their nodes -/

/-- What holds of nodes and of data, and of a list if it holds of its items, holds of every slot. -/
theorem Slot.induction_on_items {P : Slot → Prop} (s : Slot) (node : ∀ n, P (.node n))
    (list : ∀ items, (∀ s ∈ items, P s) → P (.list items)) (data : ∀ j, P (.data j)) : P s :=
  match s with
  | .node n => node n
  | .list items => list items fun s _ => s.induction_on_items node list data
  | .data j => data j

/-- The nodes in a list of slots are those in one of them. -/
theorem Slot.listNodes_eq (ss : List Slot) : Slot.listNodes ss = ss.flatMap Slot.nodes := by
  induction ss with
  | nil => simp [listNodes]
  | cons s ss ih => simp [listNodes, ih]

/-- The nodes in a list of slots are replaced in one slot after the other. -/
theorem Slot.mapList_eq (f : Node → Node) (ss : List Slot) :
    Slot.mapList f ss = ss.map (Slot.map f) := by
  induction ss with
  | nil => simp [mapList]
  | cons s ss ih => simp [mapList, ih]

/-- The traversal of a list of slots goes through one slot after the other. -/
theorem Slot.listPreorder_eq (ss : List Slot) :
    Slot.listPreorder ss = ss.flatMap Slot.preorder := by
  induction ss with
  | nil => simp [listPreorder]
  | cons s ss ih => simp [listPreorder, ih]

/-- A slot with its nodes replaced holds the replaced nodes. -/
theorem Slot.nodes_map (f : Node → Node) (s : Slot) : (s.map f).nodes = s.nodes.map f := by
  induction s using induction_on_items with
  | node n => simp [map, nodes]
  | list items ih =>
    rw [map, nodes, nodes, mapList_eq, listNodes_eq, listNodes_eq, List.flatMap_map,
      List.map_flatMap]
    exact List.flatMap_congr ih
  | data j => simp [map, nodes]

/-- Functions that agree on the nodes of a slot make one slot of it. -/
theorem Slot.map_congr {f g : Node → Node} {s : Slot} (h : ∀ n ∈ s.nodes, f n = g n) :
    s.map f = s.map g := by
  induction s using induction_on_items with
  | node n => rw [map, map, h n (by simp [nodes])]
  | list items ih =>
    rw [nodes, listNodes_eq] at h
    rw [map, map, mapList_eq, mapList_eq]
    refine congrArg _ (List.map_congr_left fun s hs => ih s hs fun n hn => h n ?_)
    exact List.mem_flatMap.2 ⟨s, hs, hn⟩
  | data j => rw [map, map]

/-- A slot whose nodes stay is the slot it was. -/
theorem Slot.map_id (s : Slot) : s.map id = s := by
  induction s using induction_on_items with
  | node n => rw [map, id]
  | list items ih => rw [map, mapList_eq, List.map_congr_left ih, List.map_id']
  | data j => rw [map]

/-- Nodes of a slot may be replaced in one step or in two. -/
theorem Slot.map_map (f g : Node → Node) (s : Slot) : (s.map f).map g = s.map (g ∘ f) := by
  induction s using induction_on_items with
  | node n => rw [map, map, map, Function.comp_apply]
  | list items ih =>
    rw [map, map, map, mapList_eq, mapList_eq, mapList_eq, List.map_map]
    exact congrArg _ (List.map_congr_left ih)
  | data j => rw [map, map, map]

/-- The traversal of a slot goes through its nodes one after the other. -/
theorem Slot.preorder_eq (s : Slot) : s.preorder = s.nodes.flatMap Node.preorder := by
  induction s using induction_on_items with
  | node n => simp [preorder, nodes]
  | list items ih =>
    rw [preorder, nodes, listPreorder_eq, listNodes_eq, List.flatMap_assoc]
    exact List.flatMap_congr ih
  | data j => simp [preorder, nodes]

/-- The traversal of the slots under keys goes through their nodes one after the other. -/
theorem Slot.fieldPreorder_eq (fields : List (String × Slot)) :
    Slot.fieldPreorder fields = (Slot.fieldNodes fields).flatMap Node.preorder := by
  induction fields with
  | nil => rw [Slot.fieldPreorder, Slot.fieldNodes, List.flatMap_nil, List.flatMap_nil]
  | cons m rest ih =>
    rw [Slot.fieldPreorder, ih, Slot.preorder_eq, Slot.fieldNodes, Slot.fieldNodes,
      List.flatMap_cons, List.flatMap_append]

/-! ## Induction -/

/-- A node in a slot is smaller than the slot. -/
theorem Slot.sizeOf_lt_of_mem_nodes {s : Slot} {n : Node} (h : n ∈ s.nodes) :
    sizeOf n < sizeOf s := by
  induction s using induction_on_items with
  | node m =>
    rw [nodes, List.mem_singleton] at h
    simp [h]
  | list items ih =>
    rw [nodes, listNodes_eq, List.mem_flatMap] at h
    obtain ⟨s, hs, hn⟩ := h
    have hitem := List.sizeOf_lt_of_mem hs
    have hnode := ih s hs hn
    rw [list.sizeOf_spec]
    omega
  | data j => simp [nodes] at h

namespace Node

/-- A child is smaller than its parent. -/
theorem sizeOf_lt_of_mem_children {n c : Node} (h : c ∈ n.children) : sizeOf c < sizeOf n := by
  rcases n with ⟨name, extra⟩ | ⟨value, raw, extra⟩ | ⟨kind, operator, argument, leading, extra⟩ |
    ⟨kind, operator, left, right, extra⟩ | ⟨callee, arguments, extra⟩ | ⟨type, fields, extra⟩
  case identifier | literal => simp [children] at h
  case unary =>
    rw [children, List.mem_singleton] at h
    rw [h, unary.sizeOf_spec]
    omega
  case binary =>
    rw [binary.sizeOf_spec]
    rcases List.mem_cons.1 h with rfl | h
    · omega
    · rw [List.mem_singleton.1 h]
      omega
  case call =>
    rw [call.sizeOf_spec]
    rcases List.mem_cons.1 h with rfl | h
    · omega
    · have hslot := Slot.sizeOf_lt_of_mem_nodes h
      omega
  case other =>
    obtain ⟨⟨key, s⟩, hfield, hc⟩ := List.mem_flatMap.1 h
    have hslot : sizeOf c < sizeOf s := Slot.sizeOf_lt_of_mem_nodes hc
    have hmem := List.sizeOf_lt_of_mem hfield
    rw [Prod.mk.sizeOf_spec] at hmem
    rw [other.sizeOf_spec]
    omega

/-- What passes from the children to the node holds of every node. -/
theorem induction_on_children {P : Node → Prop} (n : Node)
    (step : ∀ n : Node, (∀ c ∈ n.children, P c) → P n) : P n :=
  step n fun c _ => c.induction_on_children step
termination_by sizeOf n
decreasing_by exact sizeOf_lt_of_mem_children ‹_›

/-! ## Replaced children -/

/-- The children of a node with replaced children are the replaced ones. -/
theorem children_mapChildren (f : Node → Node) (n : Node) :
    (n.mapChildren f).children = n.children.map f := by
  cases n with
  | identifier name extra => rfl
  | literal value raw extra => rfl
  | unary kind operator argument leading extra => rfl
  | binary kind operator left right extra => rfl
  | call callee arguments extra =>
    rw [mapChildren, children, children, List.map_cons, Slot.nodes_map]
  | other type fields extra =>
    rw [mapChildren, children, children, Slot.fieldNodes, Slot.fieldNodes, List.flatMap_map,
      List.map_flatMap]
    exact List.flatMap_congr fun m _ => Slot.nodes_map f m.2

/-- Functions that agree on the children of a node make one node of it. -/
theorem mapChildren_congr {f g : Node → Node} {n : Node} (h : ∀ c ∈ n.children, f c = g c) :
    n.mapChildren f = n.mapChildren g := by
  cases n with
  | identifier name extra => rfl
  | literal value raw extra => rfl
  | unary kind operator argument leading extra =>
    rw [mapChildren, mapChildren, h argument (List.mem_singleton_self _)]
  | binary kind operator left right extra =>
    rw [mapChildren, mapChildren, h left List.mem_cons_self,
      h right (List.mem_cons_of_mem _ List.mem_cons_self)]
  | call callee arguments extra =>
    rw [mapChildren, mapChildren, h callee List.mem_cons_self,
      Slot.map_congr fun c hc => h c (List.mem_cons_of_mem _ hc)]
  | other type fields extra =>
    have hfields : ∀ m ∈ fields, (m.1, m.2.map f) = (m.1, m.2.map g) := fun m hm => by
      rw [Slot.map_congr fun c hc => h c (List.mem_flatMap.2 ⟨m, hm, hc⟩)]
    rw [mapChildren, mapChildren, List.map_congr_left hfields]

/-- A node whose children stay is the node it was. -/
theorem mapChildren_id (n : Node) : n.mapChildren id = n := by
  cases n with
  | identifier name extra => rfl
  | literal value raw extra => rfl
  | unary kind operator argument leading extra => rfl
  | binary kind operator left right extra => rfl
  | call callee arguments extra => rw [mapChildren, id, Slot.map_id]
  | other type fields extra =>
    rw [mapChildren]
    congr 1
    exact List.map_congr_left (fun m _ => by rw [Slot.map_id]; rfl) |>.trans (List.map_id fields)

/-- A node whose children are mapped to themselves is the node it was. -/
theorem mapChildren_eq_self {f : Node → Node} {n : Node} (h : ∀ c ∈ n.children, f c = c) :
    n.mapChildren f = n :=
  (mapChildren_congr h).trans n.mapChildren_id

/-- Children may be replaced in one step or in two. -/
theorem mapChildren_mapChildren (f g : Node → Node) (n : Node) :
    (n.mapChildren f).mapChildren g = n.mapChildren (g ∘ f) := by
  cases n with
  | identifier name extra => rfl
  | literal value raw extra => rfl
  | unary kind operator argument leading extra => rfl
  | binary kind operator left right extra => rfl
  | call callee arguments extra =>
    rw [mapChildren, mapChildren, mapChildren, Slot.map_map, Function.comp_apply]
  | other type fields extra =>
    simp only [mapChildren, List.map_map, Function.comp_def, Slot.map_map]

/-- A node stays the node that it is if all its children stay. -/
theorem replaceChildren_eq_none_iff {results : Node → Option Node} {n : Node} :
    n.replaceChildren results = none ↔ ∀ c ∈ n.children, results c = none := by
  rw [replaceChildren]
  split
  · rename_i hall
    simpa using hall
  · rename_i hall
    simpa using hall

/-- The node with the results of its children put in. -/
theorem getD_replaceChildren {results : Node → Option Node} {f : Node → Node} {n : Node}
    (h : ∀ c ∈ n.children, (results c).getD c = f c) :
    (n.replaceChildren results).getD n = n.mapChildren f := by
  rw [replaceChildren]
  split
  · rename_i hall
    refine (mapChildren_eq_self fun c hc => ?_).symm
    rw [← h c hc, Option.isNone_iff_eq_none.1 (List.all_eq_true.1 hall c hc), Option.getD_none]
  · exact mapChildren_congr h

/-- A node has its type whatever its children are. -/
theorem nodeType_mapChildren (f : Node → Node) (n : Node) :
    (n.mapChildren f).nodeType = n.nodeType := by
  cases n <;> rfl

/-! ## Traversals -/

/-- A traversal is the node, followed by the traversals of its children. -/
theorem preorder_eq (n : Node) : n.preorder = n :: n.children.flatMap preorder := by
  cases n with
  | identifier name extra => simp [preorder, children]
  | literal value raw extra => simp [preorder, children]
  | unary kind operator argument leading extra => simp [preorder, children]
  | binary kind operator left right extra => simp [preorder, children]
  | call callee arguments extra => simp [preorder, children, Slot.preorder_eq]
  | other type fields extra => simp [preorder, children, Slot.fieldPreorder_eq]

/-- A node is in its own traversal. -/
theorem mem_preorder_self (n : Node) : n ∈ n.preorder := by
  rw [preorder_eq]
  exact List.mem_cons_self

/-- The nodes of a traversal are the node and those of the traversals of its children. -/
theorem mem_preorder {m n : Node} : m ∈ n.preorder ↔ m = n ∨ ∃ c ∈ n.children, m ∈ c.preorder := by
  rw [preorder_eq, List.mem_cons, List.mem_flatMap]

/-- What holds of all nodes of a traversal holds of the root and of all nodes below it. -/
theorem forall_mem_preorder {P : Node → Prop} {n : Node} :
    (∀ m ∈ n.preorder, P m) ↔ P n ∧ ∀ c ∈ n.children, ∀ m ∈ c.preorder, P m := by
  constructor
  · intro h
    exact ⟨h n n.mem_preorder_self, fun c hc m hm => h m (mem_preorder.2 (.inr ⟨c, hc, hm⟩))⟩
  · rintro ⟨hn, hchildren⟩ m hm
    rcases mem_preorder.1 hm with rfl | ⟨c, hc, hm⟩
    · exact hn
    · exact hchildren c hc m hm

end Node

mutual

/-- A node and all nodes below it: each after its children, and these from left
    to right. -/
def Node.postorder : Node → List Node
  | n@(.identifier _ _) | n@(.literal _ _ _) => [n]
  | n@(.unary _ _ argument _ _) => argument.postorder ++ [n]
  | n@(.binary _ _ left right _) => left.postorder ++ right.postorder ++ [n]
  | n@(.call callee arguments _) => callee.postorder ++ arguments.postorder ++ [n]
  | n@(.other _ fields _) => Slot.fieldPostorder fields ++ [n]

/-- The nodes in a slot and all nodes below them. -/
def Slot.postorder : Slot → List Node
  | .node n => n.postorder
  | .list items => Slot.listPostorder items
  | .data _ => []

/-- The nodes in a list of slots and all nodes below them. -/
def Slot.listPostorder : List Slot → List Node
  | [] => []
  | s :: ss => s.postorder ++ Slot.listPostorder ss

/-- The nodes in the slots under keys and all nodes below them. -/
def Slot.fieldPostorder : List (String × Slot) → List Node
  | [] => []
  | (_, s) :: rest => s.postorder ++ Slot.fieldPostorder rest

end

/-- The traversal of a list of slots goes through one slot after the other. -/
theorem Slot.listPostorder_eq (ss : List Slot) :
    Slot.listPostorder ss = ss.flatMap Slot.postorder := by
  induction ss with
  | nil => simp [listPostorder]
  | cons s ss ih => simp [listPostorder, ih]

/-- The traversal of a slot goes through its nodes one after the other. -/
theorem Slot.postorder_eq (s : Slot) : s.postorder = s.nodes.flatMap Node.postorder := by
  induction s using induction_on_items with
  | node n => simp [postorder, nodes]
  | list items ih =>
    rw [postorder, nodes, listPostorder_eq, listNodes_eq, List.flatMap_assoc]
    exact List.flatMap_congr ih
  | data j => simp [postorder, nodes]

/-- The traversal of the slots under keys goes through their nodes one after the other. -/
theorem Slot.fieldPostorder_eq (fields : List (String × Slot)) :
    Slot.fieldPostorder fields = (Slot.fieldNodes fields).flatMap Node.postorder := by
  induction fields with
  | nil => rw [Slot.fieldPostorder, Slot.fieldNodes, List.flatMap_nil, List.flatMap_nil]
  | cons m rest ih =>
    rw [Slot.fieldPostorder, ih, Slot.postorder_eq, Slot.fieldNodes, Slot.fieldNodes,
      List.flatMap_cons, List.flatMap_append]

namespace Node

/-- The traversals of the children come before the node. -/
theorem postorder_eq (n : Node) : n.postorder = n.children.flatMap postorder ++ [n] := by
  cases n with
  | identifier name extra => simp [postorder, children]
  | literal value raw extra => simp [postorder, children]
  | unary kind operator argument leading extra => simp [postorder, children]
  | binary kind operator left right extra => simp [postorder, children]
  | call callee arguments extra => simp [postorder, children, Slot.postorder_eq]
  | other type fields extra => simp [postorder, children, Slot.fieldPostorder_eq]

/-- Both traversals come to the same nodes, each as often. -/
theorem postorder_perm_preorder (n : Node) : n.postorder.Perm n.preorder := by
  induction n using induction_on_children with
  | step n ih =>
    rw [postorder_eq, preorder_eq]
    have hchildren : (n.children.flatMap postorder).Perm (n.children.flatMap preorder) :=
      List.Perm.flatMap_left _ ih
    exact (List.perm_append_singleton n _).trans (hchildren.cons n)

/-- Both traversals come to the same nodes. -/
theorem mem_postorder_iff {m n : Node} : m ∈ n.postorder ↔ m ∈ n.preorder :=
  n.postorder_perm_preorder.mem_iff

end Node

/-! ## Images -/

mutual

/-- A tree rebuilt from the leaves up, with a function applied to every node once its children
    are rebuilt. -/
def Node.image (f : Node → Node) : Node → Node
  | .identifier name extra => f (.identifier name extra)
  | .literal value raw extra => f (.literal value raw extra)
  | .unary kind operator argument leading extra =>
    f (.unary kind operator (argument.image f) leading extra)
  | .binary kind operator left right extra =>
    f (.binary kind operator (left.image f) (right.image f) extra)
  | .call callee arguments extra => f (.call (callee.image f) (arguments.image f) extra)
  | .other type fields extra => f (.other type (Slot.imageFields f fields) extra)

/-- A slot with its nodes rebuilt. -/
def Slot.image (f : Node → Node) : Slot → Slot
  | .node n => .node (n.image f)
  | .list items => .list (Slot.imageList f items)
  | .data j => .data j

/-- A list of slots with their nodes rebuilt. -/
def Slot.imageList (f : Node → Node) : List Slot → List Slot
  | [] => []
  | s :: ss => s.image f :: Slot.imageList f ss

/-- Slots under keys with their nodes rebuilt. -/
def Slot.imageFields (f : Node → Node) : List (String × Slot) → List (String × Slot)
  | [] => []
  | (k, s) :: rest => (k, s.image f) :: Slot.imageFields f rest

end

/-- A list of slots is rebuilt one slot after the other. -/
theorem Slot.imageList_eq (f : Node → Node) (ss : List Slot) :
    Slot.imageList f ss = ss.map (Slot.image f) := by
  induction ss with
  | nil => simp [imageList]
  | cons s ss ih => simp [imageList, ih]

/-- A slot with its nodes rebuilt is the slot with their images. -/
theorem Slot.image_eq (f : Node → Node) (s : Slot) : s.image f = s.map (Node.image f) := by
  induction s using induction_on_items with
  | node n => rw [image, map]
  | list items ih => rw [image, map, imageList_eq, mapList_eq, List.map_congr_left ih]
  | data j => rw [image, map]

/-- Slots under keys with their nodes rebuilt are the slots with their images. -/
theorem Slot.imageFields_eq (f : Node → Node) (fields : List (String × Slot)) :
    Slot.imageFields f fields = fields.map fun m => (m.1, m.2.map (Node.image f)) := by
  induction fields with
  | nil => rw [Slot.imageFields, List.map_nil]
  | cons m rest ih => rw [Slot.imageFields, ih, List.map_cons, Slot.image_eq]

/-- The image of a tree is the function's value at the node with the images of its children. -/
theorem Node.image_eq (f : Node → Node) (n : Node) :
    n.image f = f (n.mapChildren (Node.image f)) := by
  cases n with
  | identifier name extra => rw [image, mapChildren]
  | literal value raw extra => rw [image, mapChildren]
  | unary kind operator argument leading extra => rw [image, mapChildren]
  | binary kind operator left right extra => rw [image, mapChildren]
  | call callee arguments extra => rw [image, mapChildren, Slot.image_eq]
  | other type fields extra => rw [image, mapChildren, Slot.imageFields_eq]

/-- A function that keeps all nodes of a tree keeps the tree. -/
theorem Node.image_eq_self {f : Node → Node} (n : Node) (h : ∀ m ∈ n.preorder, f m = m) :
    n.image f = n := by
  induction n using Node.induction_on_children with
  | step n ih =>
    have hchildren : ∀ c ∈ n.children, c.image f = c := fun c hc =>
      ih c hc fun m hm => h m (Node.mem_preorder.2 (.inr ⟨c, hc, hm⟩))
    rw [Node.image_eq, Node.mapChildren_eq_self hchildren]
    exact h n n.mem_preorder_self

end TaintWeave
