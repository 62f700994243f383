import TaintWeave.Node.Walk
import TaintWeave.Proofs.Node.Reading

/-!
# The nodes right below a node

Where a document is read, only some values in it are read as nodes. Here they are listed in the
order of the document, each with its place, and it is shown that they are all that counts: a value
is read if and only if these are, and the first of them that is not decides about the error.

* `Json.nodesAt`: the nodes in a value, in lists at any depth.
* `Place.below`: the nodes right below a node.
* `Json.error?_ofJson`, `Place.error?_searched`: the first error in them is that of the value.
-/

namespace TaintWeave

/-! ## Places in a document -/

/-- The part of a value after a turn. -/
def Json.part? : Json → Turn → Option Json
  | .object members, .key key => Members.get? key members
  | .array items, .item index => items[index]?
  | _, _ => none

/-- The value in a document after some turns, of which the last one comes first. -/
def Json.at? (document : Json) : List Turn → Option Json
  | [] => some document
  | t :: turns => (document.at? turns).bind fun j => j.part? t

/-- What comes after one more turn. -/
theorem Json.at?_turn {document j : Json} {p : Place} (t : Turn)
    (h : document.at? p.turns = some j) : document.at? (p.turn t).turns = j.part? t := by
  rw [Place.turn, at?, h, Option.bind_some]

/-! ## Items -/

namespace Place

variable {p : Place} {m : Place × Json}

/-- The items with their places are the items. -/
theorem map_snd_items (p : Place) (i : Nat) (items : List Json) :
    (p.items i items).map Prod.snd = items := by
  induction items generalizing i with
  | nil => rfl
  | cons j js ih => rw [items, List.map_cons, ih]

/-- An item stands after the turn to it. -/
theorem exists_of_mem_items {i : Nat} {items : List Json} (h : m ∈ p.items i items) :
    ∃ k, m.1 = p.turn (.item (i + k)) ∧ items[k]? = some m.2 := by
  induction items generalizing i with
  | nil => cases h
  | cons j js ih =>
    rcases List.mem_cons.1 h with rfl | h
    · exact ⟨0, rfl, rfl⟩
    · obtain ⟨k, hplace, hitem⟩ := ih h
      exact ⟨k + 1, by rw [hplace, Nat.add_assoc, Nat.add_comm 1 k], hitem⟩

/-- What holds of an array if it holds of its items, and of all other values, holds of every
    value. -/
theorem induction_on_items {P : Place → Json → Prop}
    (array : ∀ p items, (∀ m ∈ p.items 0 items, P m.1 m.2) → P p (.array items))
    (single : ∀ p j, (∀ items, j ≠ .array items) → P p j) (p : Place) (j : Json) : P p j :=
  match j with
  | .array items => array p items fun m hm =>
    have := sizeOf_lt_of_mem_items hm
    induction_on_items array single m.1 m.2
  | .null | .boolean _ | .number _ | .text _ | .object _ => single p _ nofun
termination_by sizeOf j
decreasing_by exact this

end Place

/-! ## The nodes in a value -/

mutual

/-- The nodes in a value at a place, in lists at any depth, from left to right. -/
def Json.nodesAt (p : Place) : Json → List (Place × Json)
  | .array items => Json.nodesAtItems p 0 items
  | j => if j.isTyped then [(p, j)] else []

/-- The nodes in the items of an array. -/
def Json.nodesAtItems (p : Place) : Nat → List Json → List (Place × Json)
  | _, [] => []
  | i, j :: js => Json.nodesAt (p.turn (.item i)) j ++ Json.nodesAtItems p (i + 1) js

end

namespace Json

variable {p : Place} {j : Json}

/-- The nodes in an array are those in its items. -/
theorem nodesAt_array (p : Place) (items : List Json) :
    nodesAt p (.array items) = (p.items 0 items).flatMap fun m => nodesAt m.1 m.2 := by
  suffices h : ∀ i, nodesAtItems p i items = (p.items i items).flatMap fun m => nodesAt m.1 m.2 by
    rw [nodesAt, h]
  induction items with
  | nil =>
    intro i
    rw [nodesAtItems, Place.items, List.flatMap_nil]
  | cons j js ih =>
    intro i
    rw [nodesAtItems, Place.items, List.flatMap_cons, ih]

/-- A value that is no array is a node if it has a type. -/
theorem nodesAt_single (p : Place) (h : ∀ items, j ≠ .array items) :
    nodesAt p j = if j.isTyped then [(p, j)] else [] := nodesAt.eq_2 p j h

/-- The nodes in a value stand where they are found, and not above the value. -/
theorem at?_of_mem_nodesAt {document : Json} {m : Place × Json}
    (h : document.at? p.turns = some j) (hm : m ∈ nodesAt p j) :
    document.at? m.1.turns = some m.2 ∧ p.depth ≤ m.1.depth ∧ m.2.isTyped = true := by
  induction p, j using Place.induction_on_items with
  | array p items ih =>
    rw [nodesAt_array, List.mem_flatMap] at hm
    obtain ⟨item, hitem, hm⟩ := hm
    obtain ⟨k, hplace, hget⟩ := Place.exists_of_mem_items hitem
    have hat : document.at? item.1.turns = some item.2 := by
      rw [hplace, at?_turn _ h, Nat.zero_add]
      exact hget
    obtain ⟨hdocument, hdepth, htyped⟩ := ih item hitem hat hm
    have hitemDepth : item.1.depth = p.depth + 1 := by rw [hplace, Place.turn]
    exact ⟨hdocument, by omega, htyped⟩
  | single p j hj =>
    rw [nodesAt_single p hj] at hm
    split at hm
    · rename_i htyped
      obtain rfl := List.mem_singleton.1 hm
      exact ⟨h, Nat.le_refl _, htyped⟩
    · cases hm

/-- A value that is no array is read as a node if it has a type, and as data otherwise. -/
theorem ofJson_single (h : ∀ items, j ≠ .array items) :
    Slot.ofJson j =
      if j.isTyped then (Node.ofJson j).map Slot.node else .ok (.data j) := by
  cases j with
  | array items => exact absurd rfl (h items)
  | object members => rw [Slot.ofJson_object, isTyped]
  | null | boolean _ | number _ | text _ => rw [Slot.ofJson]; rfl

/-- The first error in the nodes of a value is that of the value. -/
theorem error?_ofJson (p : Place) (j : Json) :
    error? (Slot.ofJson j) = (nodesAt p j).findSome? fun m => error? (Node.ofJson m.2) := by
  induction p, j using Place.induction_on_items with
  | array p items ih =>
    calc error? (Slot.ofJson (.array items))
      _ = error? (((p.items 0 items).map Prod.snd).mapM Slot.ofJson) := by
        rw [Slot.ofJson, error?_map, Slot.ofItems_eq, Place.map_snd_items]
      _ = (p.items 0 items).findSome? fun m => error? (Slot.ofJson m.2) := by
        rw [error?_mapM, List.findSome?_map]
        rfl
      _ = (p.items 0 items).findSome? fun m =>
          (nodesAt m.1 m.2).findSome? fun m => error? (Node.ofJson m.2) :=
        findSome?_congr ih
      _ = (nodesAt p (.array items)).findSome? fun m => error? (Node.ofJson m.2) := by
        rw [nodesAt_array, findSome?_flatMap]
  | single p j hj =>
    rw [nodesAt_single p hj, ofJson_single hj]
    split
    · rw [error?_map, List.findSome?_singleton]
    · rfl

end Json

/-! ## The nodes right below a node -/

namespace Place

variable {p : Place} {type : String} {members : Members Json} {m : Place × Json}

/-- The nodes right below a node, from left to right. -/
def below (p : Place) (type : String) (members : Members Json) : List (Place × Json) :=
  (p.searched type members).flatMap fun m => Json.nodesAt m.1 m.2

/-- The nodes among values are found from the last to the first in each of them. -/
theorem nodes_eq (values : List (Place × Json)) :
    nodes values = values.flatMap fun m => (Json.nodesAt m.1 m.2).reverse := by
  induction values using nodes.induct with
  | case1 => rw [nodes, List.flatMap_nil]
  | case2 p items rest ih =>
    rw [nodes, ih, List.flatMap_append, List.flatMap_cons, Json.nodesAt_array, List.reverse_flatMap]
    rfl
  | case3 p j rest harray htyped ih =>
    rw [nodes, if_pos htyped, ih, List.flatMap_cons, Json.nodesAt_single p harray, if_pos htyped]
    · rfl
    · exact harray
  | case4 p j rest harray htyped ih =>
    rw [nodes, if_neg htyped, ih, List.flatMap_cons, Json.nodesAt_single p harray, if_neg htyped]
    · rfl
    · exact harray

/-- Found from the last value on, the nodes below a node are those from left to right, reversed. -/
theorem nodes_searched (p : Place) (type : String) (members : Members Json) :
    nodes (p.searched type members).reverse = (p.below type members).reverse := by
  rw [nodes_eq, below, List.reverse_flatMap]
  rfl

/-- The value under a key stands after the turn to it. -/
theorem exists_of_mem_searched (h : m ∈ p.searched type members) :
    ∃ key ∈ (NodeType.ofName type).searchedKeys members,
      m.1 = p.turn (.key key) ∧ Members.get? key members = some m.2 := by
  obtain ⟨⟨key, j⟩, hmember, rfl⟩ := List.mem_map.1 h
  obtain ⟨hkey, hget⟩ := Members.mem_pick.1 hmember
  exact ⟨key, hkey, rfl, hget⟩

/-- The nodes below a node stand where they are found, and that is below the node. -/
theorem at?_of_mem_below {document : Json}
    (h : document.at? p.turns = some (.object members)) (hm : m ∈ p.below type members) :
    document.at? m.1.turns = some m.2 ∧ p.depth < m.1.depth ∧ m.2.isTyped = true := by
  obtain ⟨value, hvalue, hm⟩ := List.mem_flatMap.1 hm
  obtain ⟨key, -, hplace, hget⟩ := exists_of_mem_searched hvalue
  have hat : document.at? value.1.turns = some value.2 := by
    rw [hplace, Json.at?_turn _ h]
    exact hget
  obtain ⟨hdocument, hdepth, htyped⟩ := Json.at?_of_mem_nodesAt hat hm
  have hvalueDepth : value.1.depth = p.depth + 1 := by rw [hplace, turn]
  exact ⟨hdocument, by omega, htyped⟩

/-- The nodes below a node weigh less than the node. -/
theorem sizeOf_lt_of_mem_below (h : m ∈ p.below type members) :
    sizeOf m.2 < sizeOf (Json.object members) := by
  have hvalues : ∀ m ∈ (p.searched type members).reverse,
      sizeOf m.2 < sizeOf (Json.object members) :=
    fun m hm => sizeOf_lt_of_mem_searched (List.mem_reverse.1 hm)
  refine sizeOf_lt_of_mem_nodes hvalues m ?_
  rwa [nodes_searched, List.mem_reverse]

/-- The first error in the nodes below a node is that of its fields. -/
theorem error?_searched (p : Place) (type : String) (members : Members Json) :
    error? ((Node.searched type members).mapM Slot.ofMember) =
      (p.below type members).findSome? fun m => error? (Node.ofJson m.2) := by
  rw [error?_mapM, below, findSome?_flatMap, searched, List.findSome?_map]
  refine findSome?_congr fun m _ => ?_
  rw [Slot.ofMember, error?_map]
  exact Json.error?_ofJson _ _

end Place

end TaintWeave
