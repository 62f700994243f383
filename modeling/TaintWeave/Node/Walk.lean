import TaintWeave.Failure
import TaintWeave.Node.Document

/-!
# Reading without recursion

A document may be nested deeper than calls can be. So it is read by a *walk*
with a stack of its own. An object is visited twice: at first the objects below
it that have a type are put on the stack, and then, when all of these are
converted, the object is. What is converted, and which objects are being
converted, is kept by the places of the objects.

* `Place`: where a value stands in a document.
* `Walk.visit`: a visit of an object.
* `Node.read`: the tree of a document, or the first thing wrong with it.
-/

namespace TaintWeave

/-! ## Places -/

/-- A turn on the way from a value to a part of it. -/
inductive Turn where
  /-- To the value under a key of an object. -/
  | key (key : String)
  /-- To an item of an array. -/
  | item (index : Nat)
  deriving DecidableEq, Repr

/-- Where a value stands in a document. Values of different depths are told
    apart without a look at the turns. -/
structure Place where
  /-- The number of turns. -/
  depth : Nat
  /-- The turns from the root, the last one first. -/
  turns : List Turn
  depth_eq : depth = turns.length
  deriving DecidableEq, Repr

namespace Place

/-- The place of the document itself. -/
def root : Place := ⟨0, [], rfl⟩

/-- The place of a part. -/
def turn (p : Place) (t : Turn) : Place := ⟨p.depth + 1, t :: p.turns, by simp [p.depth_eq]⟩

end Place

/-- The items of an array at a place, each at its own. -/
def Place.items (p : Place) : Nat → List Json → List (Place × Json)
  | _, [] => []
  | i, j :: js => (p.turn (.item i), j) :: p.items (i + 1) js

/-- An item weighs less than its array. -/
theorem Place.sizeOf_lt_of_mem_items {p : Place} {i : Nat} {items : List Json} {m : Place × Json}
    (h : m ∈ p.items i items) : sizeOf m.2 < sizeOf (Json.array items) := by
  have hmem : m.2 ∈ items := by
    induction items generalizing i with
    | nil => cases h
    | cons j js ih =>
      rcases List.mem_cons.1 h with rfl | h
      · exact List.mem_cons_self
      · exact List.mem_cons_of_mem j (ih h)
  have := List.sizeOf_lt_of_mem hmem
  rw [Json.array.sizeOf_spec]
  omega

/-! ## Worklists -/

/-- The weights of things that are still to be done: first comes what is done next. -/
def Weights := List Nat

/-- The weights of things. -/
def Weights.of {α : Type} (weight : α → Nat) (things : List α) : Weights := things.map weight

/-- What is done next is replaced with things of less weight. -/
def Weights.Below (next weights : Weights) : Prop :=
  ∃ (new rest : List Nat) (weight : Nat),
    next = new ++ rest ∧ weights = weight :: rest ∧ ∀ w ∈ new, w < weight

/-- It comes to an end, whatever the number of new things is each time. -/
theorem Weights.wf : WellFounded Below := by
  -- A first weight may be put in front of what comes to an end, if all lesser ones may.
  have hcons : ∀ (weight : Nat) (rest : List Nat), Acc Below rest → Acc Below (weight :: rest) := by
    intro weight
    induction weight using Nat.strongRecOn with
    | ind weight ih =>
      refine fun rest hrest => ⟨_, ?_⟩
      rintro _ ⟨new, _, _, rfl, ⟨⟩, hnew⟩
      induction new with
      | nil => exact hrest
      | cons w new ihNew =>
        rw [List.forall_mem_cons] at hnew
        exact ih w hnew.1 _ (ihNew hnew.2)
  refine ⟨fun weights => ?_⟩
  induction weights with
  | nil => exact ⟨_, fun _ ⟨_, _, _, _, h, _⟩ => nomatch h⟩
  | cons weight rest ih => exact hcons weight rest ih

instance : WellFoundedRelation Weights := ⟨Weights.Below, Weights.wf⟩

/-- What is done next is replaced with things of less weight, or with nothing. -/
theorem Weights.below {α : Type} {weight : α → Nat} {new rest : List α} {next : α}
    (h : ∀ a ∈ new, weight a < weight next) :
    Below (of weight (new ++ rest)) (of weight (next :: rest)) := by
  refine ⟨new.map weight, rest.map weight, weight next, List.map_append, List.map_cons, ?_⟩
  intro w hw
  obtain ⟨a, ha, rfl⟩ := List.mem_map.1 hw
  exact h a ha

/-! ## The nodes below a node -/

/-- Whether a value is an object with a type. -/
def Json.isTyped : Json → Bool
  | object members => Members.hasKey "type" members
  | _ => false

/-- The keys of a node under which other nodes are looked for. The value of a
    literal is data. -/
def NodeType.searchedKeys (t : NodeType) (members : Members Json) : List String :=
  match t with
  | literal => []
  | other => members.keys.filter Node.isFieldKey
  | t => t.keys

/-- The members of a node in which other nodes are looked for, in order. -/
def Node.searched (type : String) (members : Members Json) : Members Json :=
  ((NodeType.ofName type).searchedKeys members).filterMap fun key =>
    (Members.get? key members).map fun j => (key, j)

/-- The values in which other nodes are looked for. -/
def Place.searched (p : Place) (type : String) (members : Members Json) : List (Place × Json) :=
  (Node.searched type members).map fun m => (p.turn (.key m.1), m.2)

/-- The nodes among values and in lists of them. The next value to be looked at
    comes first, and of the items of a list that is the last one. -/
def Place.nodes : List (Place × Json) → List (Place × Json)
  | [] => []
  | (p, .array items) :: rest => nodes ((p.items 0 items).reverse ++ rest)
  | (p, j) :: rest => if j.isTyped then (p, j) :: nodes rest else nodes rest
termination_by values => Weights.of (fun m => sizeOf m.2) values
decreasing_by
  · exact Weights.below fun m hm => sizeOf_lt_of_mem_items (List.mem_reverse.1 hm)
  · exact Weights.below (List.forall_mem_nil _)
  · exact Weights.below (List.forall_mem_nil _)

/-- The nodes that are found weigh no more than the values that they are found in. -/
theorem Place.sizeOf_lt_of_mem_nodes {values : List (Place × Json)} {bound : Nat}
    (h : ∀ m ∈ values, sizeOf m.2 < bound) : ∀ m ∈ nodes values, sizeOf m.2 < bound := by
  induction values using nodes.induct with
  | case1 =>
    rw [nodes]
    exact List.forall_mem_nil _
  | case2 p items rest ih =>
    rw [nodes]
    rw [List.forall_mem_cons] at h
    refine ih fun m hm => ?_
    rcases List.mem_append.1 hm with hm | hm
    · exact Nat.lt_trans (sizeOf_lt_of_mem_items (List.mem_reverse.1 hm)) h.1
    · exact h.2 m hm
  | case3 p j rest harray htyped ih =>
    rw [List.forall_mem_cons] at h
    rw [nodes, if_pos htyped, List.forall_mem_cons]
    · exact ⟨h.1, ih h.2⟩
    · exact harray
  | case4 p j rest harray htyped ih =>
    rw [List.forall_mem_cons] at h
    rw [nodes, if_neg htyped]
    · exact ih h.2
    · exact harray

/-- A value under a key weighs less than the object. -/
theorem Place.sizeOf_lt_of_mem_searched {p : Place} {type : String} {members : Members Json}
    {m : Place × Json} (h : m ∈ p.searched type members) :
    sizeOf m.2 < sizeOf (Json.object members) := by
  have hget : ∀ {members : Members Json} {key : String} {j : Json},
      Members.get? key members = some j → sizeOf j < sizeOf members := by
    intro members key j hget
    induction members with
    | nil => cases hget
    | cons m rest ih =>
      obtain ⟨k, value⟩ := m
      rw [List.cons.sizeOf_spec, Prod.mk.sizeOf_spec]
      rw [Members.get?] at hget
      split at hget
      · cases hget
        omega
      · have := ih hget
        omega
  obtain ⟨⟨key, j⟩, hmember, rfl⟩ := List.mem_map.1 h
  obtain ⟨_, -, hj⟩ := List.mem_filterMap.1 hmember
  obtain ⟨_, hj, ⟨⟩⟩ := Option.map_eq_some_iff.1 hj
  have hlt : sizeOf j < sizeOf members := hget hj
  rw [Json.object.sizeOf_spec]
  exact Nat.lt_add_left 1 hlt

/-! ## Visits -/

/-- A node on the stack of a walk. -/
structure Visit where
  /-- Where it stands. -/
  place : Place
  /-- The document of it. -/
  document : Json
  /-- Whether the nodes below it have been put on the stack. -/
  expanded : Bool

/-- The state of a walk. -/
structure Walk where
  /-- What is still to be visited: first comes what is visited next. -/
  stack : List Visit
  /-- The places of the nodes that are visited for the second time later. -/
  active : List Place
  /-- The trees of the nodes that are converted. -/
  converted : List (Place × Node)

/-- The type and the members of a node. -/
def Json.node : Json → Except Diagnostic (String × Members Json)
  | object members =>
    match Members.get? "type" members with
    | some (.text type) => .ok (type, members)
    | _ =>
      .error (.nodeConversion "ESTree node has no 'type' string"
        (String.ofList ((Json.object members).display.toList.take 80)))
  | j => .error (.nodeConversion ("expected an ESTree node object, got " ++ j.typeName))

/-- The node with fields that are converted already. -/
def Node.build (members : Members Json) (fields : Members Slot) : Except Diagnostic Node :=
  ofMembers members (fields.map fun f => (f.1, .ok f.2))

namespace Walk

/-- The tree of the node at a place. -/
def tree? (w : Walk) (p : Place) : Option Node := w.converted.lookup p

mutual

/-- A value of which the nodes are converted already. -/
def slot (w : Walk) (p : Place) : Json → Except Fault Slot
  | .array items => (w.slots p 0 items).map Slot.list
  | j =>
    if j.isTyped then
      match w.tree? p with
      | some n => .ok (.node n)
      | none => .error .missingKey
    else .ok (.data j)

/-- Items of an array of which the nodes are converted already. -/
def slots (w : Walk) (p : Place) : Nat → List Json → Except Fault (List Slot)
  | _, [] => .ok []
  | i, j :: js => do
    let s ← w.slot (p.turn (.item i)) j
    let ss ← w.slots p (i + 1) js
    return s :: ss

end

/-- The fields of a node, in order. -/
def fields (w : Walk) (p : Place) (members : Members Json) : Except Fault (Members Slot) :=
  members.mapM fun m => do return (m.1, ← w.slot (p.turn (.key m.1)) m.2)

/-- The tree of a node below which all nodes are converted already. -/
def convert (w : Walk) (p : Place) (type : String) (members : Members Json) :
    Except Failure Node := do
  Node.build members (← w.fields p (Node.searched type members))

/-- The first visits of nodes that are not converted yet. Each node is put on top of those before
    it, so the last one is visited first. -/
def visits (w : Walk) (nodes : List (Place × Json)) : List Visit :=
  ((nodes.filter fun m => (w.tree? m.1).isNone).map fun m => ⟨m.1, m.2, false⟩).reverse

/-- Puts a node back on the stack, and the nodes below it on top of it. -/
def expand (w : Walk) (v : Visit) (type : String) (members : Members Json) : Walk :=
  let below := w.visits (Place.nodes (v.place.searched type members).reverse)
  { w with
    active := v.place :: w.active
    stack := below ++ { v with expanded := true } :: w.stack }

/-- Keeps the tree of a node. -/
def finish (w : Walk) (v : Visit) (n : Node) : Walk :=
  { w with converted := (v.place, n) :: w.converted, active := w.active.erase v.place }

/-- Visits a node that has been taken from the stack. -/
def visit (w : Walk) (v : Visit) : Except Failure Walk :=
  if (w.tree? v.place).isSome then .ok w
  else
    match v.document.node with
    | .error diagnostic => .error (.diagnostic diagnostic)
    | .ok (type, members) =>
      if v.expanded then (w.convert v.place type members).map (w.finish v)
      else if w.active.contains v.place then
        .error (.diagnostic (.nodeConversion (type ++ " node contains itself")))
      else .ok (w.expand v type members)

/-! ### The end of a walk -/

/-- What is left to do for a node: more before the nodes below it are on the stack. -/
noncomputable def weight (v : Visit) : Nat := if v.expanded then 0 else sizeOf v.document

/-- A node with a type is an object with it. -/
theorem eq_object_of_node {j : Json} {type : String} {members : Members Json}
    (h : j.node = .ok (type, members)) :
    j = .object members ∧ Members.get? "type" members = some (.text type) := by
  rw [Json.node.eq_def] at h
  split at h
  · split at h
    · rename_i htype
      cases h
      exact ⟨rfl, htype⟩
    · cases h
  · cases h

/-- A node and the nodes below it are less to do once it is expanded. -/
theorem stack_expand (w : Walk) {v : Visit} {type : String} {members : Members Json}
    (hnode : v.document.node = .ok (type, members)) (hfirst : ¬v.expanded = true) :
    ∃ new, (w.expand v type members).stack = new ++ w.stack ∧
      ∀ u ∈ new, weight u < weight v := by
  obtain ⟨hobject, -⟩ := eq_object_of_node hnode
  have hbelow : ∀ m ∈ Place.nodes (v.place.searched type members).reverse,
      sizeOf m.2 < sizeOf v.document := by
    rw [hobject]
    exact Place.sizeOf_lt_of_mem_nodes fun m hm =>
      Place.sizeOf_lt_of_mem_searched (List.mem_reverse.1 hm)
  refine ⟨w.visits (Place.nodes (v.place.searched type members).reverse) ++
    [{ v with expanded := true }], by rw [expand, List.append_cons], fun u hu => ?_⟩
  rw [weight, weight, if_neg hfirst]
  rcases List.mem_append.1 hu with hu | hu
  · obtain ⟨m, hm, rfl⟩ := List.mem_map.1 (List.mem_reverse.1 hu)
    exact hbelow m (List.mem_filter.1 hm).1
  · rw [List.mem_singleton.1 hu, if_pos rfl, hobject, Json.object.sizeOf_spec]
    omega

/-- A visit leaves a converted node alone, converts one, or puts the nodes below it on the stack. -/
theorem visit_cases {w next : Walk} {v : Visit} (h : w.visit v = .ok next) :
    next = w ∨ (∃ n, next = w.finish v n) ∨
      ∃ type members, v.document.node = .ok (type, members) ∧ ¬v.expanded = true ∧
        next = w.expand v type members := by
  rw [visit] at h
  split at h
  · cases h
    exact .inl rfl
  · split at h
    · cases h
    · rename_i type members hnode
      split at h
      · rcases hconvert : w.convert v.place type members with failure | n
        · rw [hconvert] at h
          cases h
        · rw [hconvert] at h
          cases h
          exact .inr (.inl ⟨n, rfl⟩)
      · split at h
        · cases h
        · rename_i hfirst _
          cases h
          exact .inr (.inr ⟨type, members, hnode, hfirst, rfl⟩)

/-- A visit puts less on the stack than was left to do for the node. -/
theorem stack_visit {w next : Walk} {v : Visit} (h : w.visit v = .ok next) :
    ∃ new, next.stack = new ++ w.stack ∧ ∀ u ∈ new, weight u < weight v := by
  rcases visit_cases h with rfl | ⟨n, rfl⟩ | ⟨type, members, hnode, hfirst, rfl⟩
  · exact ⟨[], rfl, List.forall_mem_nil _⟩
  · exact ⟨[], rfl, List.forall_mem_nil _⟩
  · exact stack_expand w hnode hfirst

/-- Visits all nodes on the stack, and those that are put there on the way. -/
def run (w : Walk) : Except Failure Walk :=
  match _ : w.stack with
  | [] => .ok w
  | v :: rest =>
    match _ : { w with stack := rest }.visit v with
    | .error failure => .error failure
    | .ok next => next.run
termination_by Weights.of weight w.stack
decreasing_by
  rename_i hstack hvisit
  obtain ⟨new, hnew, hweight⟩ := stack_visit hvisit
  rw [hstack, hnew]
  exact Weights.below hweight

end Walk

/-- The tree of a document. -/
def Node.read (document : Json) : Except Failure Node := do
  let w ← Walk.run ⟨[⟨.root, document, false⟩], [], []⟩
  match w.tree? .root with
  | some n => return n
  | none => throw (.fault .missingKey)

end TaintWeave
