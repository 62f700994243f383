import TaintWeave.Proofs.Node.Below
import TaintWeave.Proofs.Node.Building

/-!
# The walk reads what the recursion reads

The walk through a document comes to the tree that the recursion over the document gives, or stops
with the same error. What carries this is a statement about any walk that has some nodes on top of
its stack: it stops with the first error in them, or goes on with the rest of the stack when all of
them are converted.

* `Walk.Sound`: the trees that a walk keeps are those of the values at their places.
* `Walk.Settles`: what a walk makes of nodes on top of its stack.
* `Walk.settles`: it does so with every value in the document.
* `Node.read_eq`: the walk and the recursion.
-/

namespace TaintWeave

/-! ## Values -/

namespace Walk

variable {document j : Json} {p : Place} {w : Walk}

/-- The items of an array are converted one by one. -/
theorem slots_eq (w : Walk) (p : Place) (i : Nat) (items : List Json) :
    w.slots p i items = (p.items i items).mapM fun m => w.slot m.1 m.2 := by
  induction items generalizing i with
  | nil => rfl
  | cons j js ih => rw [slots, Place.items, List.mapM_cons, ih]

/-- A value that is no array is converted already if it has a type, and data otherwise. -/
theorem slot_single (w : Walk) (p : Place) (h : ∀ items, j ≠ .array items) :
    w.slot p j =
      if j.isTyped then
        match w.tree? p with
        | some n => .ok (.node n)
        | none => .error .missingKey
      else .ok (.data j) := slot.eq_2 w p j h

/-- A walk has the trees of some nodes. -/
def Has (w : Walk) (nodes : List (Place × Json)) : Prop :=
  ∀ m ∈ nodes, ∃ n, w.tree? m.1 = some n ∧ Node.ofJson m.2 = .ok n

/-- A value of which all nodes are converted is what is read off it. -/
theorem exists_slot (h : w.Has (j.nodesAt p)) :
    ∃ s, w.slot p j = .ok s ∧ Slot.ofJson j = .ok s := by
  induction p, j using Place.induction_on_items with
  | array p items ih =>
    rw [Json.nodesAt_array] at h
    have hitems : ∀ m ∈ p.items 0 items, ∃ s, w.slot m.1 m.2 = .ok s ∧ Slot.ofJson m.2 = .ok s :=
      fun m hm => ih m hm fun n hn => h n (List.mem_flatMap.2 ⟨m, hm, hn⟩)
    obtain ⟨ss, hslots, hread⟩ := exists_mapM_eq_ok_both hitems
    refine ⟨.list ss, ?_, ?_⟩
    · rw [slot, slots_eq, hslots]
      rfl
    · have hmap : (p.items 0 items).mapM (fun m => Slot.ofJson m.2) = items.mapM Slot.ofJson := by
        conv_rhs => rw [← Place.map_snd_items p 0 items, List.mapM_map]
        rfl
      rw [Slot.ofJson, Slot.ofItems_eq, ← hmap, hread]
      rfl
  | single p j hj =>
    rw [slot_single w p hj, Json.ofJson_single hj]
    by_cases htyped : j.isTyped = true
    · rw [Json.nodesAt_single p hj, if_pos htyped] at h
      obtain ⟨n, htree, hread⟩ := h (p, j) (List.mem_singleton_self _)
      rw [if_pos htyped, if_pos htyped, htree, hread]
      exact ⟨.node n, rfl, rfl⟩
    · rw [if_neg htyped, if_neg htyped]
      exact ⟨.data j, rfl, rfl⟩

/-- A node below which all nodes are converted is built from what is read in it. -/
theorem convert_eq {type : String} {members : Members Json} (h : w.Has (p.below type members)) :
    ∃ fields, (Node.searched type members).mapM Slot.ofMember = .ok fields ∧
      w.convert p type members = (Node.build members fields).mapError .diagnostic := by
  have hmembers : ∀ m ∈ Node.searched type members,
      ∃ f, (do return (m.1, ← w.slot (p.turn (.key m.1)) m.2)) = Except.ok f ∧
        Slot.ofMember m = .ok f := by
    intro m hm
    have hnodes : w.Has (Json.nodesAt (p.turn (.key m.1)) m.2) := fun n hn =>
      h n (List.mem_flatMap.2 ⟨_, List.mem_map_of_mem hm, hn⟩)
    obtain ⟨s, hslot, hread⟩ := exists_slot hnodes
    exact ⟨(m.1, s), bind_eq_ok.2 ⟨s, hslot, rfl⟩, map_eq_ok.2 ⟨s, hread, rfl⟩⟩
  obtain ⟨fields, hfields, hread⟩ := exists_mapM_eq_ok_both hmembers
  refine ⟨fields, hread, ?_⟩
  rw [convert, Walk.fields, hfields]
  rfl

/-! ## Visits -/

/-- A node that is converted is not visited again. -/
theorem visit_of_isSome {v : Visit} (h : (w.tree? v.place).isSome = true) : w.visit v = .ok w := by
  rw [visit, if_pos h]

/-- What is no node is not visited. -/
theorem visit_of_error {v : Visit} {diagnostic : Diagnostic} (htree : w.tree? v.place = none)
    (hnode : v.document.node = .error diagnostic) :
    w.visit v = .error (.diagnostic diagnostic) := by
  rw [visit, htree, hnode]
  rfl

/-- At its first visit, the nodes below a node are put on the stack. -/
theorem visit_first {type : String} {members : Members Json} (htree : w.tree? p = none)
    (hnode : j.node = .ok (type, members)) (hactive : p ∉ w.active) :
    w.visit ⟨p, j, false⟩ = .ok (w.expand ⟨p, j, false⟩ type members) := by
  have hcontains : ¬w.active.contains p = true := fun h => hactive (List.contains_iff_mem.1 h)
  rw [visit, htree]
  dsimp only
  rw [hnode]
  dsimp only
  rw [if_neg hcontains]
  rfl

/-- At its second visit, a node is converted. -/
theorem visit_second {type : String} {members : Members Json} (htree : w.tree? p = none)
    (hnode : j.node = .ok (type, members)) :
    w.visit ⟨p, j, true⟩ = (w.convert p type members).map (w.finish ⟨p, j, true⟩) := by
  rw [visit, htree]
  dsimp only
  rw [hnode]
  rfl

/-- A walk with nothing to visit is over. -/
theorem run_nil (active : List Place) (converted : List (Place × Node)) :
    run ⟨[], active, converted⟩ = .ok ⟨[], active, converted⟩ := by
  rw [run]

/-- A walk begins with what is visited next. -/
theorem run_cons (v : Visit) (w : Walk) :
    run { w with stack := v :: w.stack } = w.visit v >>= run := by
  rw [run]
  dsimp only
  split
  · rename_i failure hvisit
    rw [hvisit]
    rfl
  · rename_i next hvisit
    rw [hvisit]
    rfl

/-! ## What a walk makes of nodes -/

/-- A walk that visits some more nodes first. -/
def first (w : Walk) (nodes : List (Place × Json)) : Walk :=
  { w with stack := nodes.map (fun m => ⟨m.1, m.2, false⟩) ++ w.stack }

/-- The first error in nodes. -/
def flaw? (nodes : List (Place × Json)) : Option Diagnostic :=
  nodes.findSome? fun m => error? (Node.ofJson m.2)

/-- The trees that a walk keeps are those of the values at their places. -/
def Sound (document : Json) (w : Walk) : Prop :=
  ∀ p n, w.tree? p = some n → ∃ j, document.at? p.turns = some j ∧ Node.ofJson j = .ok n

/-- A walk has converted nodes, and no other nodes but those below them. -/
structure Converts (document : Json) (nodes : List (Place × Json)) (w w' : Walk) : Prop where
  stack : w'.stack = w.stack
  active : w'.active = w.active
  sound : w'.Sound document
  kept : ∀ p, (w.tree? p).isSome = true → (w'.tree? p).isSome = true
  fresh : ∀ p, (w'.tree? p).isSome = true →
    (w.tree? p).isSome = true ∨ ∃ m ∈ nodes, m.1.depth ≤ p.depth
  done : ∀ m ∈ nodes, (w'.tree? m.1).isSome = true

/-- What a walk makes of nodes that are not below one another, whatever is on the stack after
    them: it stops with the first error in them, or it goes on when they are converted. -/
def Settles (document : Json) (nodes : List (Place × Json)) : Prop :=
  ∀ w : Walk, w.Sound document → (∀ a ∈ w.active, ∀ m ∈ nodes, a.depth < m.1.depth) →
    (∀ diagnostic, flaw? nodes = some diagnostic →
      (w.first nodes).run = .error (.diagnostic diagnostic)) ∧
    (flaw? nodes = none → ∃ w', Converts document nodes w w' ∧ (w.first nodes).run = w'.run)

/-- Some nodes are converted, and then others. -/
theorem Converts.trans {m : Place × Json} {rest : List (Place × Json)} {w w₁ w₂ : Walk}
    (h : Converts document [m] (w.first rest) w₁)
    (h' : Converts document rest { w₁ with stack := w.stack } w₂) :
    Converts document (m :: rest) w w₂ where
  stack := h'.stack
  active := h'.active.trans h.active
  sound := h'.sound
  kept p hp := h'.kept p (h.kept p hp)
  fresh p hp := by
    rcases h'.fresh p hp with hp | ⟨n, hn, hdepth⟩
    · refine (h.fresh p hp).imp_right ?_
      rintro ⟨n, hn, hdepth⟩
      exact ⟨n, List.mem_singleton.1 hn ▸ List.mem_cons_self, hdepth⟩
    · exact .inr ⟨n, List.mem_cons_of_mem m hn, hdepth⟩
  done := by
    rw [List.forall_mem_cons]
    exact ⟨h'.kept _ (h.done m (List.mem_singleton_self m)), h'.done⟩

/-- Nodes are settled one after the other. -/
theorem settles_of_forall {nodes : List (Place × Json)} (h : ∀ m ∈ nodes, Settles document [m]) :
    Settles document nodes := by
  induction nodes with
  | nil =>
    intro w hsound _
    exact ⟨nofun, fun _ => ⟨w, ⟨rfl, rfl, hsound, fun _ => id, fun _ => .inl, nofun⟩, rfl⟩⟩
  | cons m rest ih =>
    rw [List.forall_mem_cons] at h
    intro w hsound hactive
    -- The other nodes are on the stack while the first one is settled.
    have hfirst := h.1 (w.first rest) hsound fun a ha n hn =>
      hactive a ha n (List.mem_singleton.1 hn ▸ List.mem_cons_self)
    have hflaw : flaw? ([m] ++ rest) = (flaw? [m]).or (flaw? rest) := List.findSome?_append
    rw [List.singleton_append] at hflaw
    rcases hm : flaw? [m] with _ | diagnostic
    · obtain ⟨⟨_, active, converted⟩, hconverts, hrun⟩ := hfirst.2 hm
      obtain rfl := hconverts.stack
      obtain rfl : active = w.active := hconverts.active
      have hrest := ih h.2 ⟨w.stack, w.active, converted⟩ hconverts.sound fun a ha n hn =>
        hactive a ha n (List.mem_cons_of_mem m hn)
      rw [hflaw, hm, Option.none_or]
      refine ⟨fun diagnostic hd => hrun.trans (hrest.1 diagnostic hd), fun hnone => ?_⟩
      obtain ⟨w', hconverts', hrun'⟩ := hrest.2 hnone
      exact ⟨w', hconverts.trans hconverts', hrun.trans hrun'⟩
    · rw [hflaw, hm]
      refine ⟨fun d hd => ?_, nofun⟩
      cases hd
      exact hfirst.1 diagnostic hm

/-- The tree that a walk keeps for a value is the one that is read off it. -/
theorem Sound.ofJson_eq {n : Node} (hsound : w.Sound document)
    (hat : document.at? p.turns = some j) (htree : w.tree? p = some n) : Node.ofJson j = .ok n := by
  obtain ⟨j', hj', hread⟩ := hsound p n htree
  rw [hat] at hj'
  cases hj'
  exact hread

/-- A walk has the trees of the nodes that it has converted. -/
theorem Sound.has {nodes : List (Place × Json)} (hsound : w.Sound document)
    (hat : ∀ m ∈ nodes, document.at? m.1.turns = some m.2)
    (hdone : ∀ m ∈ nodes, (w.tree? m.1).isSome = true) : w.Has nodes := by
  intro m hm
  obtain ⟨n, hn⟩ := Option.isSome_iff_exists.1 (hdone m hm)
  exact ⟨n, hn, hsound.ofJson_eq (hat m hm) hn⟩

/-- There is no error in nodes that are converted already. -/
theorem Sound.flaw?_filter (hsound : w.Sound document) {nodes : List (Place × Json)}
    (hat : ∀ m ∈ nodes, document.at? m.1.turns = some m.2) :
    flaw? (nodes.filter fun m => (w.tree? m.1).isNone) = flaw? nodes := by
  refine findSome?_filter fun m hm hnone => error?_eq_none_iff.2 ?_
  rw [Option.isNone_eq_false_iff, Option.isSome_iff_exists] at hnone
  obtain ⟨n, hn⟩ := hnone
  exact ⟨n, hsound.ofJson_eq (hat m hm) hn⟩

/-- The nodes below a node that are not converted yet are put on top of it. -/
theorem expand_eq (w : Walk) (p : Place) (j : Json) (type : String) (members : Members Json) :
    w.expand ⟨p, j, false⟩ type members =
      ({ w with active := p :: w.active, stack := ⟨p, j, true⟩ :: w.stack } : Walk).first
        ((p.below type members).filter fun m => (w.tree? m.1).isNone) := by
  rw [expand, visits, Place.nodes_searched, List.filter_reverse, List.map_reverse,
    List.reverse_reverse]
  rfl

/-- A node that is converted is found at its place. -/
theorem tree?_finish (w : Walk) (v : Visit) (n : Node) (q : Place) :
    (w.finish v n).tree? q = if q = v.place then some n else w.tree? q := by
  rw [tree?, finish, List.lookup_cons]
  by_cases h : q = v.place
  · rw [if_pos h, beq_iff_eq.2 h]
  · rw [if_neg h, beq_eq_false_iff_ne.2 h]
    rfl

/-- A node is converted once the nodes below it are. -/
theorem Converts.finish {nodes : List (Place × Json)} {converted : List (Place × Node)} {n : Node}
    (h : Converts document nodes
      { w with active := p :: w.active, stack := ⟨p, j, true⟩ :: w.stack }
      ⟨⟨p, j, true⟩ :: w.stack, p :: w.active, converted⟩)
    (hat : document.at? p.turns = some j) (hread : Node.ofJson j = .ok n)
    (hdepth : ∀ m ∈ nodes, p.depth < m.1.depth) :
    Converts document [(p, j)] w
      (Walk.finish ⟨w.stack, p :: w.active, converted⟩ ⟨p, j, true⟩ n) where
  stack := rfl
  active := List.erase_cons_head p w.active
  sound := by
    intro q m hq
    rw [tree?_finish] at hq
    split at hq
    · rename_i hplace
      cases hq
      exact ⟨j, by rw [hplace]; exact hat, hread⟩
    · exact h.sound q m hq
  kept := by
    intro q hq
    rw [tree?_finish]
    split
    · rfl
    · exact h.kept q hq
  fresh := by
    intro q hq
    rw [tree?_finish] at hq
    split at hq
    · rename_i hplace
      exact .inr ⟨(p, j), List.mem_singleton_self _,
        Nat.le_of_eq (congrArg Place.depth hplace.symm)⟩
    · refine (h.fresh q hq).imp_right ?_
      rintro ⟨m, hm, hle⟩
      exact ⟨(p, j), List.mem_singleton_self _, Nat.le_trans (Nat.le_of_lt (hdepth m hm)) hle⟩
  done := by
    refine List.forall_mem_singleton.2 ?_
    rw [tree?_finish, if_pos rfl]
    rfl

/-- What is no node is not read as one. -/
theorem ofJson_of_node_eq_error {diagnostic : Diagnostic} (h : j.node = .error diagnostic) :
    Node.ofJson j = .error diagnostic := by
  rw [Json.node.eq_def] at h
  split at h
  · rename_i members
    split at h
    · cases h
    · rename_i htype
      rw [Node.ofJson]
      unfold Node.ofMembers
      split
      · rename_i type htype'
        exact absurd htype' (htype type)
      · exact congrArg _ (Except.error.inj h)
  · rename_i hj
    rw [Node.ofJson.eq_2 j hj]
    exact congrArg _ (Except.error.inj h)

/-- The second visit of a node builds it from what is read in it: the nodes below it that had not
    been converted at the first visit are by then, and the node itself is not. -/
theorem Converts.run_second {type : String} {members : Members Json}
    {converted : List (Place × Node)}
    (h : Converts document ((p.below type members).filter fun m => (w.tree? m.1).isNone)
      { w with active := p :: w.active, stack := ⟨p, .object members, true⟩ :: w.stack }
      ⟨⟨p, .object members, true⟩ :: w.stack, p :: w.active, converted⟩)
    (hat : document.at? p.turns = some (.object members)) (htree : w.tree? p = none)
    (hnode : (Json.object members).node = .ok (type, members)) :
    ∃ fields, (Node.searched type members).mapM Slot.ofMember = .ok fields ∧
      run ⟨⟨p, .object members, true⟩ :: w.stack, p :: w.active, converted⟩ =
        ((Node.build members fields).mapError .diagnostic).map
          (Walk.finish ⟨w.stack, p :: w.active, converted⟩ ⟨p, .object members, true⟩) >>= run := by
  let w₂ : Walk := ⟨w.stack, p :: w.active, converted⟩
  have htree₂ : w₂.tree? p = none := by
    by_contra hne
    rcases h.fresh p (Option.isSome_iff_ne_none.2 hne) with hsome | ⟨m, hm, hle⟩
    · exact Option.isSome_iff_ne_none.1 hsome htree
    · exact absurd hle (Nat.not_le.2 (Place.at?_of_mem_below hat (List.mem_filter.1 hm).1).2.1)
  have hhas : w₂.Has (p.below type members) := by
    refine h.sound.has (fun m hm => (Place.at?_of_mem_below hat hm).1) fun m hm => ?_
    by_cases hdone : (w.tree? m.1).isSome = true
    · exact h.kept m.1 hdone
    · refine h.done m (List.mem_filter.2 ⟨hm, ?_⟩)
      rwa [Option.isNone_iff_eq_none, ← Option.not_isSome_iff_eq_none]
  obtain ⟨fields, hfields, hconvert⟩ := convert_eq hhas
  have hvisit : run { w₂ with stack := ⟨p, .object members, true⟩ :: w₂.stack } =
      w₂.visit ⟨p, .object members, true⟩ >>= run := run_cons _ w₂
  rw [visit_second htree₂ hnode, hconvert] at hvisit
  exact ⟨fields, hfields, hvisit⟩

/-- An object with a type is visited twice, with the nodes below it in between. -/
theorem settles_object {type : String} {members : Members Json}
    (hat : document.at? p.turns = some j)
    (hbelow : ∀ type members, j = .object members → ∀ m ∈ p.below type members,
      Settles document [m])
    (hsound : w.Sound document) (hactive : ∀ a ∈ w.active, ∀ m ∈ [(p, j)], a.depth < m.1.depth)
    (htree : w.tree? p = none) (hnode : j.node = .ok (type, members)) :
    (∀ diagnostic, error? (Node.ofJson j) = some diagnostic →
      w.visit ⟨p, j, false⟩ >>= run = .error (.diagnostic diagnostic)) ∧
    (error? (Node.ofJson j) = none → ∃ w', Converts document [(p, j)] w w' ∧
      w.visit ⟨p, j, false⟩ >>= run = w'.run) := by
  obtain ⟨rfl, htype⟩ := eq_object_of_node hnode
  have hdepth : ∀ a ∈ w.active, a.depth < p.depth := fun a ha =>
    hactive a ha _ (List.mem_singleton_self _)
  have hplaces := fun m (hm : m ∈ p.below type members) => Place.at?_of_mem_below hat hm
  have hfresh : p ∉ w.active := fun h => Nat.lt_irrefl _ (hdepth p h)
  -- The nodes below it are settled, with the node itself next on the stack.
  let w₁ : Walk := { w with
    active := p :: w.active, stack := ⟨p, .object members, true⟩ :: w.stack }
  let nodes := (p.below type members).filter fun m => (w.tree? m.1).isNone
  have hnodes : ∀ m ∈ nodes, m ∈ p.below type members := fun m hm => (List.mem_filter.1 hm).1
  have hactive₁ : ∀ a ∈ w₁.active, ∀ m ∈ nodes, a.depth < m.1.depth := by
    intro a ha m hm
    have hlt := (hplaces m (hnodes m hm)).2.1
    rcases List.mem_cons.1 ha with rfl | ha
    · exact hlt
    · exact Nat.lt_trans (hdepth a ha) hlt
  have hbelow₁ := settles_of_forall
    (fun m hm => hbelow type members rfl m (hnodes m hm)) w₁ hsound hactive₁
  have hflaw : flaw? nodes = error? ((Node.searched type members).mapM Slot.ofMember) := by
    rw [Place.error?_searched p]
    exact hsound.flaw?_filter fun m hm => (hplaces m hm).1
  have hvisit : w.visit ⟨p, .object members, false⟩ >>= run = (w₁.first nodes).run := by
    rw [visit_first htree hnode hfresh, expand_eq]
    rfl
  rw [hvisit, Node.ofJson_eq_build htype]
  rw [hflaw] at hbelow₁
  rcases hfields : (Node.searched type members).mapM Slot.ofMember with diagnostic | fields
  · rw [hfields] at hbelow₁
    refine ⟨fun d hd => ?_, nofun⟩
    cases hd
    exact hbelow₁.1 diagnostic rfl
  · rw [hfields] at hbelow₁
    obtain ⟨⟨_, _, converted⟩, hconverts, hrun⟩ := hbelow₁.2 rfl
    obtain rfl := hconverts.stack
    obtain rfl := hconverts.active
    obtain ⟨fields', hfields', hsecond⟩ := hconverts.run_second hat htree hnode
    rw [hfields] at hfields'
    cases hfields'
    rw [hrun, hsecond]
    change (∀ d, error? (Node.build members fields) = some d → _) ∧
      (error? (Node.build members fields) = none → _)
    rcases hbuild : Node.build members fields with diagnostic | n
    · refine ⟨fun d hd => ?_, nofun⟩
      cases hd
      rfl
    · have hread : Node.ofJson (.object members) = .ok n := by
        rw [Node.ofJson_eq_build htype, hfields]
        exact hbuild
      refine ⟨nofun, fun _ => ⟨_, ?_, rfl⟩⟩
      exact hconverts.finish hat hread fun m hm => (hplaces m (hnodes m hm)).2.1

/-- A node is settled if the nodes below it are. -/
theorem settles_node (hat : document.at? p.turns = some j)
    (hbelow : ∀ type members, j = .object members → ∀ m ∈ p.below type members,
      Settles document [m]) : Settles document [(p, j)] := by
  intro w hsound hactive
  have hflaw : flaw? [(p, j)] = error? (Node.ofJson j) := List.findSome?_singleton
  have hrun : (w.first [(p, j)]).run = w.visit ⟨p, j, false⟩ >>= run := run_cons ⟨p, j, false⟩ w
  rw [hflaw, hrun]
  rcases htree : w.tree? p with _ | n
  · rcases hnode : j.node with diagnostic | ⟨type, members⟩
    · rw [visit_of_error htree hnode, ofJson_of_node_eq_error hnode]
      refine ⟨fun d hd => ?_, nofun⟩
      cases hd
      rfl
    · exact settles_object hat hbelow hsound hactive htree hnode
  · -- The node is converted already.
    have hsome : (w.tree? p).isSome = true := by rw [htree]; rfl
    rw [visit_of_isSome hsome, hsound.ofJson_eq hat htree]
    refine ⟨nofun, fun _ => ⟨w, ?_, rfl⟩⟩
    exact ⟨rfl, rfl, hsound, fun _ => id, fun _ => .inl, List.forall_mem_singleton.2 hsome⟩

/-- Every value is settled where it stands in the document. -/
theorem settles (hat : document.at? p.turns = some j) : Settles document [(p, j)] := by
  induction hsize : sizeOf j using Nat.strongRecOn generalizing p j with
  | ind size ih =>
    refine settles_node hat fun type members hobject m hm => ?_
    rw [hobject] at hat
    refine ih (sizeOf m.2) ?_ (Place.at?_of_mem_below hat hm).1 rfl
    rw [← hsize, hobject]
    exact Place.sizeOf_lt_of_mem_below hm

end Walk

/-- The walk reads what the recursion reads, and stops with the same error. -/
theorem Node.read_eq (document : Json) :
    read document = (Node.ofJson document).mapError .diagnostic := by
  have hsound : Walk.Sound document ⟨[], [], []⟩ := nofun
  obtain ⟨hstops, hends⟩ := Walk.settles (p := .root) rfl ⟨[], [], []⟩ hsound nofun
  have hflaw : Walk.flaw? [(.root, document)] = error? (Node.ofJson document) :=
    List.findSome?_singleton
  rw [hflaw] at hstops hends
  rcases hread : Node.ofJson document with diagnostic | n
  · rw [hread] at hstops
    have hrun : Walk.run ⟨[⟨.root, document, false⟩], [], []⟩ = .error (.diagnostic diagnostic) :=
      hstops diagnostic rfl
    rw [read, hrun]
    rfl
  · rw [hread] at hends
    obtain ⟨⟨stack, active, converted⟩, hconverts, hrun⟩ := hends rfl
    obtain rfl : stack = [] := hconverts.stack
    rw [Walk.run_nil] at hrun
    -- At the end the document is converted, and its tree is the one that the recursion gives.
    obtain ⟨n', htree⟩ := Option.isSome_iff_exists.1
      (hconverts.done (.root, document) (List.mem_singleton_self _))
    have hread' : Node.ofJson document = .ok n' := hconverts.sound.ofJson_eq rfl htree
    rw [hread] at hread'
    cases hread'
    have hrun' : Walk.run ⟨[⟨.root, document, false⟩], [], []⟩ = .ok ⟨[], active, converted⟩ := hrun
    rw [read, hrun']
    dsimp only [bind, Except.bind]
    rw [htree]
    rfl

/-- Of two objects in which something is missing, the first in the document counts. -/
example : Node.read (.object [("type", .text "Pair"),
    ("first", .array [.array [.object [("type", .text "Literal")]]]),
    ("second", .object [("type", .text "Identifier")])]) =
      .error (.diagnostic (.nodeConversion "Literal node is missing 'value'")) := by
  rw [Node.read_eq]
  rfl

end TaintWeave
