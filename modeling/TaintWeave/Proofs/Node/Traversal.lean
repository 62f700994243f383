import Mathlib.Data.List.Basic
import TaintWeave.Proofs.Node.Relation

/-!
# Children and traversals

The children of a node are read in one place and put back in another, and a traversal comes to all
nodes with a stack. Here both are tied to the tree.

A node with other children is made part by part. A part in which nothing is new is *given back*: it
stays the part that it is. So a list of slots stays if all its items do, and a node if all its parts
do. Values have no identity here; what is made of a part is `none` where that is the part itself.

A traversal visits the node on top of a stack and puts its children there, the first one on top.
Which nodes it comes to, and how often, is told by their *paths*: from the root, the number of a
child on every level. Nodes that are equal still have different paths.

* `Node.renew`: a node made part by part; `Node.renew_eq`: it is the node with the children
  replaced, and stays itself if and only if all children do.
* `Node.rel_mapChildren`: nothing but the children is replaced.
* `Node.visits`: the traversal with a stack; `Node.visits_eq`: it goes through one tree after the
  other.
* `Node.mem_paths_iff`, `Node.pairwise_paths`, `Node.map_descendant?_paths`: the paths of a tree are
  those of its nodes, each is there once and in order, and they lead to the nodes of the traversal.
* `Node.traversal_laws`: all together.
-/

namespace TaintWeave

/-! ## Parts that stay -/

/-- What is made of an old part: the part itself, if it is to stay, and otherwise a new one. -/
structure Renews {α : Type} (stays : Prop) (old new : α) (result : Option α) : Prop where
  eq_none_iff : result = none ↔ stays
  getD_eq : result.getD old = new

/-- Two parts of which some are new; both stay if neither is. -/
def renewBoth {α β : Type} (old : α × β) : Option α → Option β → Option (α × β)
  | none, none => none
  | first, second => some (first.getD old.1, second.getD old.2)

namespace Renews

variable {α β : Type} {p q : Prop} {a a' : α} {b b' : β} {first : Option α} {second : Option β}

/-- There is one result. -/
theorem unique {other : Option α} (h : Renews p a a' first) (hother : Renews p a a' other) :
    first = other := by
  rcases first with _ | x
  · exact (hother.eq_none_iff.2 (h.eq_none_iff.1 rfl)).symm
  · rcases other with _ | y
    · exact h.eq_none_iff.2 (hother.eq_none_iff.1 rfl)
    · exact congrArg some (h.getD_eq.trans hother.getD_eq.symm)

/-- A whole with one part stays if the part does. -/
theorem map (h : Renews p a a' first) (g : α → β) : Renews p (g a) (g a') (first.map g) where
  eq_none_iff := Option.map_eq_none_iff.trans h.eq_none_iff
  getD_eq := by rw [Option.getD_map, h.getD_eq]

/-- Two parts stay if each of them does. -/
theorem both (h : Renews p a a' first) (h' : Renews q b b' second) :
    Renews (p ∧ q) (a, b) (a', b') (renewBoth (a, b) first second) where
  eq_none_iff := by
    rw [← h.eq_none_iff, ← h'.eq_none_iff]
    cases first <;> cases second <;> simp [renewBoth]
  getD_eq := by
    rw [← h.getD_eq, ← h'.getD_eq]
    cases first <;> cases second <;> rfl

end Renews

mutual

/-- What is made of a slot when its nodes are renewed. -/
def Slot.renew (f : Node → Option Node) : Slot → Option Slot
  | .node n => (f n).map .node
  | .list items => (Slot.renewItems f items).map .list
  | .data _ => none

/-- What is made of a list of slots when their nodes are renewed. -/
def Slot.renewItems (f : Node → Option Node) : List Slot → Option (List Slot)
  | [] => none
  | s :: ss => (renewBoth (s, ss) (s.renew f) (Slot.renewItems f ss)).map fun m => m.1 :: m.2

end

/-- What is made of the slots under keys when their nodes are renewed. -/
def Slot.renewFields (f : Node → Option Node) :
    List (String × Slot) → Option (List (String × Slot))
  | [] => none
  | (key, s) :: rest =>
    (renewBoth (s, rest) (s.renew f) (Slot.renewFields f rest)).map fun m => (key, m.1) :: m.2

/-- What is made of a node when its children are renewed, part by part. -/
def Node.renew (f : Node → Option Node) : Node → Option Node
  | .identifier _ _ | .literal _ _ _ => none
  | .unary kind operator argument leading extra =>
    (f argument).map fun argument => .unary kind operator argument leading extra
  | .binary kind operator left right extra =>
    (renewBoth (left, right) (f left) (f right)).map fun m => .binary kind operator m.1 m.2 extra
  | .call callee arguments extra =>
    (renewBoth (callee, arguments) (f callee) (arguments.renew f)).map fun m =>
      .call m.1 m.2 extra
  | .other type fields extra =>
    (Slot.renewFields f fields).map fun fields => .other type fields extra

section Renewal

variable (f : Node → Option Node)

mutual

/-- A slot stays if all its nodes do. -/
theorem Slot.renews_renew : ∀ s : Slot,
    Renews (∀ n ∈ s.nodes, f n = none) s (s.map fun n => (f n).getD n) (s.renew f)
  | .node n => by
    have hnode : Renews (f n = none) n ((f n).getD n) (f n) := ⟨Iff.rfl, rfl⟩
    simpa only [Slot.nodes, Slot.map, Slot.renew, List.forall_mem_singleton] using
      hnode.map Slot.node
  | .list items => by
    simpa only [Slot.nodes, Slot.map, Slot.renew] using
      (Slot.renews_renewItems items).map Slot.list
  | .data j => by
    simp only [Slot.nodes, Slot.map, Slot.renew]
    exact ⟨by simp, rfl⟩

/-- A list of slots stays if all its nodes do. -/
theorem Slot.renews_renewItems : ∀ ss : List Slot,
    Renews (∀ n ∈ Slot.listNodes ss, f n = none) ss (Slot.mapList (fun n => (f n).getD n) ss)
      (Slot.renewItems f ss)
  | [] => by
    simp only [Slot.listNodes, Slot.mapList, Slot.renewItems]
    exact ⟨by simp, rfl⟩
  | s :: ss => by
    simpa only [Slot.listNodes, Slot.mapList, Slot.renewItems, List.forall_mem_append] using
      ((Slot.renews_renew s).both (Slot.renews_renewItems ss)).map fun m => m.1 :: m.2

end

/-- Slots under keys stay if all their nodes do. -/
theorem Slot.renews_renewFields (fields : List (String × Slot)) :
    Renews (∀ n ∈ Slot.fieldNodes fields, f n = none) fields
      (fields.map fun m => (m.1, m.2.map fun n => (f n).getD n)) (Slot.renewFields f fields) := by
  induction fields with
  | nil => exact ⟨by simp [Slot.renewFields, Slot.fieldNodes], rfl⟩
  | cons field rest ih =>
    obtain ⟨key, s⟩ := field
    simpa only [Slot.fieldNodes, Slot.renewFields, List.flatMap_cons, List.map_cons,
      List.forall_mem_append] using
      ((Slot.renews_renew f s).both ih).map fun m => (key, m.1) :: m.2

/-- A node stays if all its children do. -/
theorem Node.renews_renew (n : Node) :
    Renews (∀ c ∈ n.children, f c = none) n (n.mapChildren fun c => (f c).getD c) (n.renew f) := by
  have hchild (c : Node) : Renews (f c = none) c ((f c).getD c) (f c) := ⟨Iff.rfl, rfl⟩
  cases n with
  | identifier name extra => exact ⟨by simp [renew, children], rfl⟩
  | literal value raw extra => exact ⟨by simp [renew, children], rfl⟩
  | unary kind operator argument leading extra =>
    simpa only [children, mapChildren, renew, List.forall_mem_singleton] using
      (hchild argument).map fun argument => Node.unary kind operator argument leading extra
  | binary kind operator left right extra =>
    simpa only [children, mapChildren, renew, List.forall_mem_cons, List.not_mem_nil, false_implies,
      implies_true, and_true] using
      ((hchild left).both (hchild right)).map fun m => Node.binary kind operator m.1 m.2 extra
  | call callee arguments extra =>
    simpa only [children, mapChildren, renew, List.forall_mem_cons] using
      ((hchild callee).both (Slot.renews_renew f arguments)).map fun m => Node.call m.1 m.2 extra
  | other type fields extra =>
    simpa only [children, mapChildren, renew] using
      (Slot.renews_renewFields f fields).map fun fields => Node.other type fields extra

/-- A node made part by part is the node with its children replaced. -/
theorem Node.renew_eq (n : Node) : n.renew f = n.replaceChildren f :=
  (n.renews_renew f).unique ⟨replaceChildren_eq_none_iff, getD_replaceChildren fun _ _ => rfl⟩

end Renewal

/-! ## What is replaced -/

section Replacement

variable (f : Node → Node)

mutual

/-- Nothing in a slot but its nodes is replaced. -/
theorem Slot.rel_map : ∀ s : Slot, Slot.Rel (fun n m => f n = m) s (s.map f)
  | .node n => by
    rw [Slot.map]
    exact .node rfl
  | .list items => by
    rw [Slot.map]
    exact .list (Slot.listRel_mapList items)
  | .data j => by
    rw [Slot.map]
    exact .data j

/-- Nothing in a list of slots but their nodes is replaced. -/
theorem Slot.listRel_mapList : ∀ ss : List Slot,
    Slot.ListRel (fun n m => f n = m) ss (Slot.mapList f ss)
  | [] => by
    rw [Slot.mapList]
    exact .nil
  | s :: ss => by
    rw [Slot.mapList]
    exact .cons (Slot.rel_map s) (Slot.listRel_mapList ss)

end

/-- Nothing in slots under keys but their nodes is replaced. -/
theorem Slot.fieldRel_map (fields : List (String × Slot)) :
    Slot.FieldRel (fun n m => f n = m) fields (fields.map fun m => (m.1, m.2.map f)) := by
  induction fields with
  | nil => exact .nil
  | cons field rest ih => exact .cons (Slot.rel_map f field.2) ih

namespace Node

/-- Nothing in a node but its children is replaced. -/
theorem rel_mapChildren (n : Node) : Node.Rel (fun c d => f c = d) n (n.mapChildren f) := by
  cases n with
  | identifier name extra => exact .identifier name extra
  | literal value raw extra => exact .literal value raw extra
  | unary kind operator argument leading extra => exact .unary rfl
  | binary kind operator left right extra => exact .binary rfl rfl
  | call callee arguments extra => exact .call rfl (Slot.rel_map f arguments)
  | other type fields extra => exact .other (Slot.fieldRel_map f fields)

/-- A node with replaced children is equal to the node if and only if each child is equal to what it
    is replaced by. -/
theorem mapChildren_eq_self_iff {f : Node → Node} {n : Node} :
    n.mapChildren f = n ↔ ∀ c ∈ n.children, f c = c := by
  refine ⟨fun h c hc => ?_, mapChildren_eq_self⟩
  have hchildren : n.children.map f = n.children.map id := by
    rw [← children_mapChildren, h, List.map_id]
  exact List.map_inj_left.1 hchildren c hc

end Node

end Replacement

namespace Node

/-! ## Traversals with a stack -/

/-- The nodes that a traversal comes to with a stack of nodes, the first one on top: it visits the
    top and puts the children of this node in its place. -/
def visits : List Node → List Node
  | [] => []
  | n :: stack => n :: visits (n.children ++ stack)
termination_by stack => (stack.flatMap preorder).length
decreasing_by
  rw [List.flatMap_append, List.flatMap_cons, preorder_eq n, List.cons_append, List.length_cons]
  exact Nat.lt_succ_self _

/-- With a stack, one tree is gone through after the other. -/
theorem visits_eq (stack : List Node) : visits stack = stack.flatMap preorder := by
  induction stack using visits.induct with
  | case1 => rw [visits, List.flatMap_nil]
  | case2 n stack ih =>
    rw [visits, ih, List.flatMap_append, List.flatMap_cons, preorder_eq n, List.cons_append]

/-- The traversal of a tree starts with its root on the stack. -/
theorem visits_singleton (n : Node) : visits [n] = n.preorder := by
  rw [visits_eq, List.flatMap_singleton]

/-! ## Paths -/

/-- The node at the end of a path. -/
def descendant? (n : Node) : List Nat → Option Node
  | [] => some n
  | i :: path => n.children[i]?.bind (descendant? · path)

/-- The paths of a tree, in order. -/
def paths (n : Node) : List (List Nat) :=
  [] :: n.children.attach.zipIdx.flatMap fun (⟨c, _⟩, i) => c.paths.map (i :: ·)
termination_by sizeOf n
decreasing_by exact sizeOf_lt_of_mem_children ‹_›

/-- The paths of a tree are the empty one and those of the children, after their numbers. -/
theorem paths_eq (n : Node) :
    n.paths = [] :: n.children.zipIdx.flatMap fun (c, i) => c.paths.map (i :: ·) := by
  have hchildren : n.children.zipIdx = n.children.attach.zipIdx.map (Prod.map Subtype.val id) := by
    rw [← List.zipIdx_map, List.attach_map_subtype_val]
  rw [paths, hchildren, List.flatMap_map]
  rfl

/-- A path belongs to a tree if it leads to a node. -/
theorem mem_paths_iff {n : Node} {path : List Nat} :
    path ∈ n.paths ↔ ∃ m, n.descendant? path = some m := by
  induction path generalizing n with
  | nil =>
    rw [paths_eq]
    exact ⟨fun _ => ⟨n, rfl⟩, fun _ => List.mem_cons_self⟩
  | cons i path ih =>
    rw [paths_eq, List.mem_cons, or_iff_right (List.cons_ne_nil i path), List.mem_flatMap]
    constructor
    · rintro ⟨⟨c, j⟩, hc, hpath⟩
      obtain ⟨_, hpath, ⟨⟩⟩ := List.mem_map.1 hpath
      obtain ⟨m, hm⟩ := ih.1 hpath
      refine ⟨m, ?_⟩
      rw [descendant?, List.mem_zipIdx_iff_getElem?.1 hc, Option.bind_some, hm]
    · rintro ⟨m, hm⟩
      obtain ⟨c, hc, hm⟩ := Option.bind_eq_some_iff.1 hm
      exact ⟨(c, i), List.mem_zipIdx_iff_getElem?.2 hc, List.mem_map_of_mem (ih.2 ⟨m, hm⟩)⟩

/-- The paths of a tree lead to the nodes of its traversal, one by one. -/
theorem map_descendant?_paths (n : Node) : n.paths.map n.descendant? = n.preorder.map some := by
  induction n using induction_on_children with
  | step n ih =>
    have hchild : ∀ m ∈ n.children.zipIdx,
        (m.1.paths.map (m.2 :: ·)).map n.descendant? = m.1.preorder.map some := by
      rintro ⟨c, i⟩ hm
      have hc : n.children[i]? = some c := List.mem_zipIdx_iff_getElem?.1 hm
      rw [← ih c (List.mem_of_getElem? hc), List.map_map]
      refine List.map_congr_left fun path _ => ?_
      rw [Function.comp_apply, descendant?, hc, Option.bind_some]
    -- The numbers of the children do not matter for the nodes below them.
    have hnumbers : (n.children.zipIdx.map Prod.fst).flatMap (fun c => c.preorder.map some) =
        n.children.flatMap fun c => c.preorder.map some := by
      rw [List.zipIdx_map_fst]
    rw [List.flatMap_map] at hnumbers
    rw [paths_eq, preorder_eq, List.map_cons, List.map_cons, List.map_flatMap, List.map_flatMap,
      List.flatMap_congr hchild, hnumbers]
    rfl

/-- The paths of a tree are in order: above all those of the nodes below, and below one child all
    before those below a later one. -/
theorem pairwise_paths (n : Node) : n.paths.Pairwise (· < ·) := by
  induction n using induction_on_children with
  | step n ih =>
    rw [paths_eq, List.pairwise_cons, List.pairwise_flatMap]
    refine ⟨fun path hpath => ?_, fun m hm => ?_, ?_⟩
    · obtain ⟨m, -, hpath⟩ := List.mem_flatMap.1 hpath
      obtain ⟨path, -, rfl⟩ := List.mem_map.1 hpath
      exact List.nil_lt_cons _ _
    · have hc := List.mem_of_getElem? (List.mem_zipIdx_iff_getElem?.1 hm)
      rw [List.pairwise_map]
      exact (ih m.1 hc).imp fun hlt => List.cons_lt_cons_iff.2 (.inr ⟨rfl, hlt⟩)
    · have hnumbers : (n.children.zipIdx.map Prod.snd).Pairwise (· < ·) := by
        rw [List.zipIdx_map_snd]
        exact List.pairwise_lt_range'
      refine (List.pairwise_map.1 hnumbers).imp fun hlt path hpath later hlater => ?_
      obtain ⟨_, -, rfl⟩ := List.mem_map.1 hpath
      obtain ⟨_, -, rfl⟩ := List.mem_map.1 hlater
      exact List.cons_lt_cons_iff.2 (.inl hlt)

/-! ## The laws -/

/-- The laws of children and traversals. The children of a node with replaced children are the
    replaced ones, in order; children may be replaced in one step or in two; and nothing else in the
    node is replaced. The node is made part by part and stays itself if and only if all its children
    do; what it is made into is equal to it if and only if they are. A traversal comes to the node
    and then goes through its children from left to right; it comes to every descendant, each by its
    own path, once and in the order of the paths. -/
theorem traversal_laws (n : Node) :
    (∀ f : Node → Node, (n.mapChildren f).children = n.children.map f ∧
      Node.Rel (fun c d => f c = d) n (n.mapChildren f) ∧
      (n.mapChildren f = n ↔ ∀ c ∈ n.children, f c = c)) ∧
    (∀ f g : Node → Node, (n.mapChildren f).mapChildren g = n.mapChildren (g ∘ f)) ∧
    (∀ results : Node → Option Node, n.renew results = n.replaceChildren results ∧
      (n.replaceChildren results).getD n = n.mapChildren (fun c => (results c).getD c) ∧
      (n.replaceChildren results = none ↔ ∀ c ∈ n.children, results c = none)) ∧
    visits [n] = n :: n.children.flatMap (fun c => visits [c]) ∧
    visits [n] = n.preorder ∧
    (n.paths.map n.descendant? = (visits [n]).map some ∧ n.paths.Pairwise (· < ·) ∧
      ∀ path, path ∈ n.paths ↔ ∃ m, n.descendant? path = some m) := by
  refine ⟨fun f => ⟨children_mapChildren f n, rel_mapChildren f n, mapChildren_eq_self_iff⟩,
    fun f g => mapChildren_mapChildren f g n, fun results => ?_, ?_, visits_singleton n, ?_,
    pairwise_paths n, fun path => mem_paths_iff⟩
  · exact ⟨renew_eq results n, getD_replaceChildren fun _ _ => rfl, replaceChildren_eq_none_iff⟩
  · rw [visits_singleton, preorder_eq]
    exact congrArg _ (List.flatMap_congr fun c _ => (visits_singleton c).symm)
  · rw [visits_singleton, map_descendant?_paths]

/-- The paths of the call `f([x], y)` whose arguments are an array and a name. -/
example : (Node.call (.named "f") (.list [.node (.other "ArrayExpression"
    [("elements", .list [.node (.named "x"), .data .null])] []), .node (.named "y")]) []).paths =
    [[], [0], [1], [1, 0], [2]] := by
  cbv

end Node

end TaintWeave
