import TaintWeave.Proofs.Node.Walk

/-!
# Where nodes are looked for

A walk comes to a value only through nodes: each turn to a key on the way leaves an object with a
type, and takes a key under which nodes of this type are searched. So no node is ever looked for in
a literal, in the position of a node, under a key that the type of a node does not model, or in an
object without a type.

* `Json.Sought`: the places of which this is true.
* `Walk.Reached`: the states that a walk comes to.
* `Walk.Reached.seeks`: all nodes on the stack are at such places.
* `Node.read_eq_ofJson`: reading, as a walk and as a recursion.
-/

namespace TaintWeave

/-- Each turn to a key on the way to a place leaves an object with a type, by a key under which
    nodes of this type are searched for other nodes. -/
def Json.Sought (document : Json) (turns : List Turn) : Prop :=
  ∀ key before, .key key :: before <:+ turns → ∃ members type,
    document.at? before = some (.object members) ∧
    Members.get? "type" members = some (.text type) ∧
    key ∈ (NodeType.ofName type).searchedKeys members

/-! ## Places -/

section Places

variable {document j : Json} {p : Place} {m : Place × Json}

/-- The document itself is sought. -/
theorem Json.sought_root (document : Json) : document.Sought Place.root.turns := by
  intro key before h
  cases List.suffix_nil.1 h

/-- An item is sought where its array is. -/
theorem Json.Sought.item (h : document.Sought p.turns) (i : Nat) :
    document.Sought (p.turn (.item i)).turns := by
  intro key before hsuffix
  rcases List.suffix_cons_iff.1 hsuffix with heq | hsuffix
  · cases heq
  · exact h key before hsuffix

/-- The nodes in a value are sought where the value is. -/
theorem Json.Sought.nodesAt (h : document.Sought p.turns) (hm : m ∈ j.nodesAt p) :
    document.Sought m.1.turns := by
  induction p, j using Place.induction_on_items with
  | array p items ih =>
    rw [Json.nodesAt_array, List.mem_flatMap] at hm
    obtain ⟨item, hitem, hm⟩ := hm
    obtain ⟨k, hplace, -⟩ := Place.exists_of_mem_items hitem
    refine ih item hitem ?_ hm
    rw [hplace]
    exact h.item _
  | single p j hj =>
    rw [Json.nodesAt_single p hj] at hm
    split at hm
    · rw [List.mem_singleton.1 hm]
      exact h
    · cases hm

/-- The nodes below a node are sought where the node is. -/
theorem Json.Sought.below {type : String} {members : Members Json} (h : document.Sought p.turns)
    (hat : document.at? p.turns = some (.object members))
    (htype : Members.get? "type" members = some (.text type)) (hm : m ∈ p.below type members) :
    document.Sought m.1.turns := by
  obtain ⟨value, hvalue, hm⟩ := List.mem_flatMap.1 hm
  obtain ⟨key, hkey, hplace, -⟩ := Place.exists_of_mem_searched hvalue
  refine Json.Sought.nodesAt (fun key' before hsuffix => ?_) hm
  rw [hplace] at hsuffix
  rcases List.suffix_cons_iff.1 hsuffix with heq | hsuffix
  · -- This is the turn from the node itself.
    cases heq
    exact ⟨members, type, hat, htype, hkey⟩
  · exact h key' before hsuffix

end Places

/-! ## States -/

namespace Walk

/-- A state that the walk through a document comes to. -/
inductive Reached (document : Json) : Walk → Prop
  | start : Reached document ⟨[⟨.root, document, false⟩], [], []⟩
  | visit {w next : Walk} {v : Visit} (h : Reached document { w with stack := v :: w.stack })
      (hvisit : w.visit v = .ok next) : Reached document next

/-- What is visited is the document, or a node in it that is sought. -/
structure Seeks (document : Json) (v : Visit) : Prop where
  at? : document.at? v.place.turns = some v.document
  typed : v.place = .root ∨ v.document.isTyped = true
  sought : document.Sought v.place.turns

variable {document : Json} {w next : Walk} {v : Visit}

/-- A node and the nodes below it are sought if the node is. -/
theorem seeks_expand {type : String} {members : Members Json} (hv : Seeks document v)
    (hnode : v.document.node = .ok (type, members)) (hw : ∀ u ∈ w.stack, Seeks document u) :
    ∀ u ∈ (w.expand v type members).stack, Seeks document u := by
  obtain ⟨hobject, htype⟩ := eq_object_of_node hnode
  have hat : document.at? v.place.turns = some (.object members) := hobject ▸ hv.at?
  intro u hu
  rw [expand, List.mem_append, List.mem_cons] at hu
  rcases hu with hu | rfl | hu
  · obtain ⟨m, hm, rfl⟩ := List.mem_map.1 (List.mem_reverse.1 hu)
    have hbelow : m ∈ v.place.below type members := by
      have hnodes := (List.mem_filter.1 hm).1
      rwa [Place.nodes_searched, List.mem_reverse] at hnodes
    obtain ⟨hplace, -, htyped⟩ := Place.at?_of_mem_below hat hbelow
    exact ⟨hplace, .inr htyped, hv.sought.below hat htype hbelow⟩
  · exact ⟨hv.at?, hv.typed, hv.sought⟩
  · exact hw u hu

/-- A visit puts nothing on the stack that is not sought. -/
theorem seeks_visit (hv : Seeks document v) (hw : ∀ u ∈ w.stack, Seeks document u)
    (h : w.visit v = .ok next) : ∀ u ∈ next.stack, Seeks document u := by
  rcases visit_cases h with rfl | ⟨n, rfl⟩ | ⟨type, members, hnode, -, rfl⟩
  · exact hw
  · exact hw
  · exact seeks_expand hv hnode hw

/-- All nodes on the stack of a walk are sought. -/
theorem Reached.seeks (h : Reached document w) : ∀ v ∈ w.stack, Seeks document v := by
  induction h with
  | start => exact List.forall_mem_singleton.2 ⟨rfl, .inl rfl, document.sought_root⟩
  | visit _ hvisit ih =>
    rw [List.forall_mem_cons] at ih
    exact seeks_visit ih.1 ih.2 hvisit

end Walk

/-- Reading by a walk is the plain recursion: both give the same tree, or the same error. The
    recursion requires an object with a text as its type. It reads the members in which nodes are
    looked for, and stops with the first error in the nodes there, in the order of the document;
    then it builds the node, and stops with the first key that is missing or, if none is, with the
    first value that is no node where one is required. A node is visited only where nodes are looked
    for on the way from the root. -/
theorem Node.read_eq_ofJson (document : Json) :
    read document = (Node.ofJson document).mapError .diagnostic ∧
    (∀ j diagnostic, j.node = .error diagnostic → Node.ofJson j = .error diagnostic) ∧
    (∀ j type members, j.node = .ok (type, members) →
      Node.ofJson j = (searched type members).mapM Slot.ofMember >>= build members ∧
      (∀ p : Place, error? ((searched type members).mapM Slot.ofMember) =
        (p.below type members).findSome? fun m => error? (Node.ofJson m.2)) ∧
      ∀ fields, (searched type members).mapM Slot.ofMember = .ok fields →
        error? (build members fields) =
          (missing? type (NodeType.ofName type).requiredKeys members).or
            (misplaced? type (NodeType.ofName type).nodeKeys fields)) ∧
    ∀ w, Walk.Reached document w → ∀ v ∈ w.stack,
      document.at? v.place.turns = some v.document ∧
      (v.place = .root ∨ v.document.isTyped = true) ∧ document.Sought v.place.turns := by
  refine ⟨read_eq document, fun j d => Walk.ofJson_of_node_eq_error, ?_, ?_⟩
  · intro j type members hnode
    obtain ⟨rfl, htype⟩ := Walk.eq_object_of_node hnode
    exact ⟨ofJson_eq_build htype, fun p => p.error?_searched type members,
      fun fields => error?_build htype⟩
  · intro w hw v hv
    have hseeks := hw.seeks v hv
    exact ⟨hseeks.at?, hseeks.typed, hseeks.sought⟩

end TaintWeave
