import TaintWeave.Proofs.Node.Children

/-!
# Related trees

Nodes are compared by a relation on their children: two nodes are related by it if they are equal
but for the children, and these are related one by one, in the same places. So nothing is left out,
added or moved between related nodes.

* `Slot.Rel`, `Slot.FieldRel`, `Node.Rel`: the relation on slots, slots under keys and nodes.
* `Node.rel_of_mapChildren_eq`: nodes that become one when their children are replaced are related,
  if the children are that become one.
* `Node.Rel.mapChildren_eq`: the converse.
-/

namespace TaintWeave

/-! ## The relation -/

mutual

/-- Slots that are equal but for their nodes, which are related one by one. -/
inductive Slot.Rel (R : Node → Node → Prop) : Slot → Slot → Prop
  | node {n m : Node} (h : R n m) : Slot.Rel R (.node n) (.node m)
  | list {ss ss' : List Slot} (h : Slot.ListRel R ss ss') : Slot.Rel R (.list ss) (.list ss')
  | data (j : Json) : Slot.Rel R (.data j) (.data j)

/-- Lists of slots that are equal but for their nodes, which are related one by one. -/
inductive Slot.ListRel (R : Node → Node → Prop) : List Slot → List Slot → Prop
  | nil : Slot.ListRel R [] []
  | cons {s s' : Slot} {ss ss' : List Slot} (head : Slot.Rel R s s') (tail : Slot.ListRel R ss ss') :
      Slot.ListRel R (s :: ss) (s' :: ss')

end

/-- Slots under the same keys that are equal but for their nodes, which are related one by one. -/
inductive Slot.FieldRel (R : Node → Node → Prop) :
    List (String × Slot) → List (String × Slot) → Prop
  | nil : Slot.FieldRel R [] []
  | cons {key : String} {s s' : Slot} {fields fields' : List (String × Slot)}
      (head : Slot.Rel R s s') (tail : Slot.FieldRel R fields fields') :
      Slot.FieldRel R ((key, s) :: fields) ((key, s') :: fields')

/-- Nodes that are equal but for their children, which are related one by one. -/
inductive Node.Rel (R : Node → Node → Prop) : Node → Node → Prop
  | identifier (name : Slot) (extra : Members Json) :
      Node.Rel R (.identifier name extra) (.identifier name extra)
  | literal (value raw : Json) (extra : Members Json) :
      Node.Rel R (.literal value raw extra) (.literal value raw extra)
  | unary {kind : UnaryKind} {operator leading : Slot} {extra : Members Json}
      {argument argument' : Node} (h : R argument argument') :
      Node.Rel R (.unary kind operator argument leading extra)
        (.unary kind operator argument' leading extra)
  | binary {kind : BinaryKind} {operator : Slot} {extra : Members Json}
      {left right left' right' : Node} (hleft : R left left') (hright : R right right') :
      Node.Rel R (.binary kind operator left right extra)
        (.binary kind operator left' right' extra)
  | call {callee callee' : Node} {arguments arguments' : Slot} {extra : Members Json}
      (hcallee : R callee callee') (harguments : Slot.Rel R arguments arguments') :
      Node.Rel R (.call callee arguments extra) (.call callee' arguments' extra)
  | other {type : String} {fields fields' : List (String × Slot)} {extra : Members Json}
      (hfields : Slot.FieldRel R fields fields') :
      Node.Rel R (.other type fields extra) (.other type fields' extra)

variable {R : Node → Node → Prop} {f : Node → Node}

/-! ## From equal images -/

mutual

/-- Slots that become one are related if the nodes are that become one. -/
theorem Slot.rel_of_map_eq : ∀ s s' : Slot, (∀ n ∈ s.nodes, ∀ m ∈ s'.nodes, f n = f m → R n m) →
    s.map f = s'.map f → Slot.Rel R s s'
  | .node n, s', h, heq => by
    cases s' with
    | node m =>
      rw [Slot.map, Slot.map, Slot.node.injEq] at heq
      exact .node (h n (List.mem_singleton_self n) m (List.mem_singleton_self m) heq)
    | list items => simp only [Slot.map, reduceCtorEq] at heq
    | data j => simp only [Slot.map, reduceCtorEq] at heq
  | .list items, s', h, heq => by
    cases s' with
    | node m => simp only [Slot.map, reduceCtorEq] at heq
    | list items' =>
      rw [Slot.map, Slot.map, Slot.list.injEq] at heq
      exact .list (Slot.listRel_of_mapList_eq items items' h heq)
    | data j => simp only [Slot.map, reduceCtorEq] at heq
  | .data j, s', _, heq => by
    cases s' with
    | node m => simp only [Slot.map, reduceCtorEq] at heq
    | list items' => simp only [Slot.map, reduceCtorEq] at heq
    | data j' =>
      rw [Slot.map, Slot.map, Slot.data.injEq] at heq
      exact heq ▸ .data j

/-- Lists of slots that become one are related if the nodes are that become one. -/
theorem Slot.listRel_of_mapList_eq : ∀ ss ss' : List Slot,
    (∀ n ∈ Slot.listNodes ss, ∀ m ∈ Slot.listNodes ss', f n = f m → R n m) →
    Slot.mapList f ss = Slot.mapList f ss' → Slot.ListRel R ss ss'
  | [], [], _, _ => .nil
  | [], _ :: _, _, heq => by simp only [Slot.mapList, reduceCtorEq] at heq
  | _ :: _, [], _, heq => by simp only [Slot.mapList, reduceCtorEq] at heq
  | s :: ss, s' :: ss', h, heq => by
    simp only [Slot.listNodes, List.mem_append] at h
    rw [Slot.mapList, Slot.mapList, List.cons.injEq] at heq
    exact .cons (Slot.rel_of_map_eq s s' (fun n hn m hm => h n (.inl hn) m (.inl hm)) heq.1)
      (Slot.listRel_of_mapList_eq ss ss' (fun n hn m hm => h n (.inr hn) m (.inr hm)) heq.2)

end

/-- Slots under keys that become the same are related if the nodes are that become one. -/
theorem Slot.fieldRel_of_map_eq {fields fields' : List (String × Slot)}
    (h : ∀ n ∈ Slot.fieldNodes fields, ∀ m ∈ Slot.fieldNodes fields', f n = f m → R n m)
    (heq : (fields.map fun m => (m.1, m.2.map f)) = fields'.map fun m => (m.1, m.2.map f)) :
    Slot.FieldRel R fields fields' := by
  induction fields generalizing fields' with
  | nil =>
    rw [List.map_nil, eq_comm, List.map_eq_nil_iff] at heq
    subst heq
    exact .nil
  | cons field rest ih =>
    obtain ⟨key, s⟩ := field
    cases fields' with
    | nil => cases heq
    | cons field' rest' =>
      obtain ⟨key', s'⟩ := field'
      simp only [List.map_cons, List.cons.injEq, Prod.mk.injEq] at heq
      obtain ⟨⟨rfl, hslot⟩, hrest⟩ := heq
      simp only [Slot.fieldNodes, List.flatMap_cons, List.mem_append] at h
      exact .cons (Slot.rel_of_map_eq s s' (fun n hn m hm => h n (.inl hn) m (.inl hm)) hslot)
        (ih (fun n hn m hm => h n (.inr hn) m (.inr hm)) hrest)

/-- Nodes that become one when their children are replaced are related, if the children are that
    become one. -/
theorem Node.rel_of_mapChildren_eq {n m : Node}
    (h : ∀ c ∈ n.children, ∀ d ∈ m.children, f c = f d → R c d)
    (heq : n.mapChildren f = m.mapChildren f) : Node.Rel R n m := by
  -- The constructors of both nodes are the same, since replaced children leave it as it is.
  cases n with
  | identifier name extra =>
    cases m <;> cases heq
    exact .identifier name extra
  | literal value raw extra =>
    cases m <;> cases heq
    exact .literal value raw extra
  | unary kind operator argument leading extra =>
    cases m <;> simp only [mapChildren, reduceCtorEq, unary.injEq] at heq
    obtain ⟨rfl, rfl, heq, rfl, rfl⟩ := heq
    exact .unary (h _ (by simp [children]) _ (by simp [children]) heq)
  | binary kind operator left right extra =>
    cases m <;> simp only [mapChildren, reduceCtorEq, binary.injEq] at heq
    obtain ⟨rfl, rfl, hleft, hright, rfl⟩ := heq
    exact .binary (h _ (by simp [children]) _ (by simp [children]) hleft)
      (h _ (by simp [children]) _ (by simp [children]) hright)
  | call callee arguments extra =>
    cases m <;> simp only [mapChildren, reduceCtorEq, call.injEq] at heq
    obtain ⟨hcallee, harguments, rfl⟩ := heq
    exact .call (h _ (by simp [children]) _ (by simp [children]) hcallee)
      (Slot.rel_of_map_eq _ _ (fun c hc d hd => h c (List.mem_cons_of_mem _ hc) d
        (List.mem_cons_of_mem _ hd)) harguments)
  | other type fields extra =>
    cases m <;> simp only [mapChildren, reduceCtorEq, other.injEq] at heq
    obtain ⟨rfl, hfields, rfl⟩ := heq
    exact .other (Slot.fieldRel_of_map_eq h hfields)

/-! ## To equal images -/

mutual

/-- Related slots become one if related nodes do. -/
theorem Slot.Rel.map_eq : ∀ {s s' : Slot}, Slot.Rel R s s' →
    (∀ n ∈ s.nodes, ∀ m, R n m → f n = f m) → s.map f = s'.map f
  | _, _, .node h, hf => by rw [Slot.map, Slot.map, hf _ (List.mem_singleton_self _) _ h]
  | _, _, .list h, hf => by rw [Slot.map, Slot.map, h.mapList_eq hf]
  | _, _, .data _, _ => rfl

/-- Related lists of slots become one if related nodes do. -/
theorem Slot.ListRel.mapList_eq : ∀ {ss ss' : List Slot}, Slot.ListRel R ss ss' →
    (∀ n ∈ Slot.listNodes ss, ∀ m, R n m → f n = f m) → Slot.mapList f ss = Slot.mapList f ss'
  | _, _, .nil, _ => rfl
  | _, _, .cons head tail, hf => by
    simp only [Slot.listNodes, List.mem_append] at hf
    rw [Slot.mapList, Slot.mapList, head.map_eq fun n hn => hf n (.inl hn),
      tail.mapList_eq fun n hn => hf n (.inr hn)]

end

/-- Related slots under keys become the same if related nodes do. -/
theorem Slot.FieldRel.map_eq {fields fields' : List (String × Slot)}
    (h : Slot.FieldRel R fields fields')
    (hf : ∀ n ∈ Slot.fieldNodes fields, ∀ m, R n m → f n = f m) :
    (fields.map fun m => (m.1, m.2.map f)) = fields'.map fun m => (m.1, m.2.map f) := by
  induction h with
  | nil => rfl
  | cons head tail ih =>
    simp only [Slot.fieldNodes, List.flatMap_cons, List.mem_append] at hf
    rw [List.map_cons, List.map_cons, head.map_eq fun n hn => hf n (.inl hn),
      ih fun n hn => hf n (.inr hn)]

/-- Related nodes become one when their children are replaced, if related children do. -/
theorem Node.Rel.mapChildren_eq {n m : Node} (h : Node.Rel R n m)
    (hf : ∀ c ∈ n.children, ∀ d, R c d → f c = f d) : n.mapChildren f = m.mapChildren f := by
  cases h with
  | identifier name extra => rfl
  | literal value raw extra => rfl
  | unary h => rw [mapChildren, mapChildren, hf _ (by simp [children]) _ h]
  | binary hleft hright =>
    rw [mapChildren, mapChildren, hf _ (by simp [children]) _ hleft,
      hf _ (by simp [children]) _ hright]
  | call hcallee harguments =>
    rw [mapChildren, mapChildren, hf _ (by simp [children]) _ hcallee,
      harguments.map_eq fun c hc => hf c (List.mem_cons_of_mem _ hc)]
  | other hfields => rw [mapChildren, mapChildren, hfields.map_eq hf]

end TaintWeave
