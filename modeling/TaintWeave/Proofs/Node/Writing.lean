import TaintWeave.Node.Document
import TaintWeave.Proofs.Arrangement
import TaintWeave.Proofs.Outcome

/-!
# Writing one by one

What is written of a tree, by what is written of its slots. The extra members of a node are under
keys of their own, so that they are written behind the others.

* `Node.IsExtra`: members that may stay with a node of a type.
* `Node.object_of_nodup`: the object of a node, member by member. The keys are different for a type
  with its own constructor (`Node.IsExtra.nodup_keys`) and for others (`Node.nodup_keys_other`).
* `Slot.itemsToJson_eq`, `Slot.plainItems_eq`, `Slot.fieldsToJson_eq`: slots are written one by one.
-/

namespace TaintWeave

/-! ## Objects -/

namespace Node

/-- Members that may stay with a node of a type: none is its type or what it models. -/
structure IsExtra (t : NodeType) (extra : Members Json) : Prop where
  nodup : extra.keys.Nodup
  notMem : ∀ key ∈ extra.keys, key ≠ "type" ∧ key ∉ t.keys

/-- The members that a type does not model may stay with a node of it. -/
theorem isExtra_extraMembers {members : Members Json} (hkeys : members.keys.Nodup) (t : NodeType) :
    IsExtra t (extraMembers t members) := by
  constructor
  · exact hkeys.sublist (List.filter_sublist.map _)
  · intro key hkey
    obtain ⟨m, hm, rfl⟩ := List.mem_map.1 hkey
    simpa [extraMembers] using (List.mem_filter.1 hm).2

/-- What may stay with a node is what its type does not model. -/
theorem IsExtra.extraMembers_eq {t : NodeType} {extra members : Members Json} (h : IsExtra t extra)
    (hmembers : ∀ key ∈ members.keys, key = "type" ∨ key ∈ t.keys) :
    extraMembers t (members ++ extra) = extra := by
  have hout : members.filter (fun m => m.1 != "type" && !t.keys.contains m.1) = [] := by
    simp only [List.filter_eq_nil_iff]
    intro m hm
    have := hmembers m.1 (List.mem_map.2 ⟨m, hm, rfl⟩)
    simpa using fun hne => this.resolve_left hne
  have hin : extra.filter (fun m => m.1 != "type" && !t.keys.contains m.1) = extra := by
    simp only [List.filter_eq_self]
    intro m hm
    have := h.notMem m.1 (List.mem_map.2 ⟨m, hm, rfl⟩)
    simpa using this
  rw [extraMembers, List.filter_append, hout, hin, List.nil_append]

/-- A type, members and extra members under different keys are written in this order. -/
theorem object_of_nodup {type : String} {members extra : Members Json}
    (h : (Members.keys (("type", .text type) :: (members ++ extra))).Nodup) :
    Node.object type members extra = .object (("type", .text type) :: (members ++ extra)) := by
  have hmembers : (Members.keys ([("type", .text type)] ++ members)).Nodup :=
    h.sublist (((List.sublist_append_left members extra).cons_cons _).map _)
  rw [Node.object, Members.insertAll_of_nodup hmembers, Members.insertAll_of_nodup]
  · simp
  · simpa using h

/-- The type, what it models and what is extra are under different keys. -/
theorem IsExtra.nodup_keys {t : NodeType} {members extra : Members Json} (h : IsExtra t extra)
    (hmembers : members.keys.Sublist t.keys) (type : Json) :
    (Members.keys (("type", type) :: (members ++ extra))).Nodup := by
  have hkeys : t.keys.Nodup ∧ "type" ∉ t.keys := by rcases t <;> decide
  rw [Members.keys_cons, Members.keys, List.map_append, List.nodup_cons, List.mem_append, not_or]
  refine ⟨⟨fun htype => hkeys.2 (hmembers.subset htype), fun htype => (h.notMem _ htype).1 rfl⟩,
    List.nodup_append.2 ⟨hkeys.1.sublist hmembers, h.nodup, ?_⟩⟩
  rintro key hkey _ hextra rfl
  exact (h.notMem key hextra).2 (hmembers.subset hkey)

/-- A node of a type with its own constructor is written with what the type models before what is
    extra. -/
theorem object_eq {t : NodeType} {members extra : Members Json} (h : IsExtra t extra)
    (hmembers : members.keys.Sublist t.keys) :
    Node.object t.name members extra = .object (("type", .text t.name) :: (members ++ extra)) :=
  object_of_nodup (h.nodup_keys hmembers _)

/-- The type, the fields and the positions of a node of another type are under different keys. -/
theorem nodup_keys_other {members extra : Members Json} (hkeys : members.keys.Nodup)
    (hfields : ∀ key ∈ members.keys, isFieldKey key = true)
    (hextra : extra.keys.Sublist positionKeys) (type : Json) :
    (Members.keys (("type", type) :: (members ++ extra))).Nodup := by
  rw [Members.keys_cons, Members.keys, List.map_append, List.nodup_cons, List.mem_append, not_or]
  refine ⟨⟨fun htype => ?_, fun htype => ?_⟩,
    List.nodup_append.2 ⟨hkeys, (show positionKeys.Nodup by decide).sublist hextra, ?_⟩⟩
  · have : isFieldKey "type" = true := hfields _ htype
    exact absurd this (by decide)
  · have : "type" ∈ positionKeys := hextra.subset htype
    exact absurd this (by decide)
  · rintro key hkey _ hposition rfl
    simpa [isFieldKey, hextra.subset hposition] using hfields key hkey

end Node

/-- A value that is not null. -/
def Json.nonNull? : Json → Option Json
  | .null => none
  | j => some j

/-- The source text of a literal is written unless it is null. -/
theorem Node.toJson_literal_eq (value raw : Json) (extra : Members Json) :
    (Node.literal value raw extra).toJson = .ok (Node.object NodeType.literal.name
      (("value", value) :: (raw.nonNull?.map fun raw => ("raw", raw)).toList) extra) := by
  rcases raw <;> rfl

/-! ## Slots -/

/-- The slots of a list are written one by one. -/
theorem Slot.itemsToJson_eq (ss : List Slot) : Slot.itemsToJson ss = ss.mapM Slot.toJson := by
  induction ss with
  | nil => rfl
  | cons s ss ih => rw [itemsToJson, List.mapM_cons, ih]

/-- The slots of a list that are not for nodes are written one by one. -/
theorem Slot.plainItems_eq (ss : List Slot) : Slot.plainItems ss = ss.mapM Slot.plainJson := by
  induction ss with
  | nil => rfl
  | cons s ss ih => rw [plainItems, List.mapM_cons, ih]

/-- A field written as the member under its key. -/
def Slot.toMember (field : String × Slot) : Except Fault (String × Json) :=
  field.2.toJson.map fun j => (field.1, j)

/-- The slots under keys are written one by one. -/
theorem Slot.fieldsToJson_eq (fields : List (String × Slot)) :
    Slot.fieldsToJson fields = fields.mapM Slot.toMember := by
  induction fields with
  | nil => rfl
  | cons field rest ih =>
    obtain ⟨key, s⟩ := field
    rw [fieldsToJson, List.mapM_cons, ih, toMember]
    rcases s.toJson with e | j
    · rfl
    · rfl

/-- The keys of slots stay when the slots are written. -/
theorem Slot.keys_of_fieldsToJson {fields : List (String × Slot)} {members : Members Json}
    (h : Slot.fieldsToJson fields = .ok members) : members.keys = Members.keys fields := by
  rw [fieldsToJson_eq, mapM_eq_ok_iff] at h
  induction h with
  | nil => rfl
  | cons hfield _ ih =>
    obtain ⟨j, _, rfl⟩ := map_eq_ok.1 hfield
    rw [Members.keys_cons, Members.keys_cons, ih]

end TaintWeave
