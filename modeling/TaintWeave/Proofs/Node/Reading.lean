import Mathlib.Data.List.Induction
import TaintWeave.Node.Document
import TaintWeave.Proofs.Arrangement
import TaintWeave.Proofs.Outcome

/-!
# Reading as a relation

Which tree an object is read as, said by what stands under its keys: a tree is *built* from the
members of an object (`Node.Built`) if their type is its own, what it models is read from the values
under its keys, and what is left over is extra.

* `Slot.ofItems_eq`: the items of an array are read one by one.
* `Members.Reads`: what is read under a key, if the key is there.
* `Conversions.select_eq`: fields are read one by one.
* `Node.ofJson_object_iff`: an object is read as the tree built from its members, and as no other.
-/

namespace TaintWeave

/-! ## Node types by their names -/

/-- A type found by a name has that name, unless it is another one. -/
theorem NodeType.eq_name_of_ofName {s : String} {t : NodeType} (h : NodeType.ofName s = t)
    (ht : t ≠ .other) : s = t.name := by
  rw [ofName] at h
  rcases hfind : modelled.find? fun t => t.name == s with _ | found
  · rw [hfind] at h
    exact absurd h.symm ht
  · rw [hfind] at h
    have := List.find?_some hfind
    simp_all

/-- A type is found by its name, unless it is another one. -/
theorem NodeType.ofName_name {t : NodeType} (ht : t ≠ .other) : NodeType.ofName t.name = t := by
  rcases t
  case other => exact absurd rfl ht
  all_goals rfl

/-! ## Values -/

/-- The items of an array are read one by one. -/
theorem Slot.ofItems_eq (items : List Json) : Slot.ofItems items = items.mapM Slot.ofJson := by
  induction items with
  | nil => rfl
  | cons j js ih => rw [ofItems, List.mapM_cons, ih]

/-- An object is read as a node if it has a type, and as it is otherwise. -/
theorem Slot.ofJson_object (members : Members Json) :
    Slot.ofJson (.object members) =
      if Members.hasKey "type" members then (Node.ofJson (.object members)).map Slot.node
      else .ok (.data (.object members)) := rfl

variable {members : Members Json} {key : String}

/-- What is found among converted values is converted. -/
theorem Slot.get?_convertMembers (key : String) (members : Members Json) :
    Members.get? key (Slot.convertMembers members) =
      (Members.get? key members).map Slot.ofJson := by
  induction members with
  | nil => rfl
  | cons m rest ih =>
    obtain ⟨k, j⟩ := m
    rw [convertMembers, Members.get?, Members.get?, ih]
    split <;> rfl

/-- What is read under a key: a slot if the key is there, and nothing otherwise. -/
def Members.Reads (members : Members Json) (key : String) : Option Slot → Prop :=
  Option.Rel (fun j s => Slot.ofJson j = .ok s) (Members.get? key members)

/-- What is read under a key is the reading of the value there. -/
theorem Members.reads_some {s : Slot} :
    members.Reads key (some s) ↔ ∃ j, members.get? key = some j ∧ Slot.ofJson j = .ok s := by
  rw [Reads]
  rcases members.get? key with _ | j
  · simp
  · simp

/-- Nothing is read under a key that is not there. -/
theorem Members.reads_none : members.Reads key none ↔ members.get? key = none := by
  rw [Reads]
  rcases members.get? key with _ | j
  · simp
  · simp

/-- One thing only is read under a key. -/
theorem Members.Reads.unique {s s' : Option Slot} (h : members.Reads key s)
    (h' : members.Reads key s') : s = s' := by
  rw [Reads] at h h'
  rcases hj : members.get? key with _ | j
  · rw [hj] at h h'
    cases h
    cases h'
    rfl
  · rw [hj] at h h'
    rcases h with ⟨hs⟩ | _
    rcases h' with ⟨hs'⟩ | _
    rw [hs, Except.ok.injEq] at hs'
    rw [hs']

/-! ## Fields -/

/-- A member read as the field under its key. -/
def Slot.ofMember (m : String × Json) : Except Diagnostic (String × Slot) :=
  (Slot.ofJson m.2).map fun s => (m.1, s)

/-- Fields are read one by one, from the members under their keys. -/
theorem Conversions.select_eq (members : Members Json) (order : List String) :
    Conversions.select (Slot.convertMembers members) order =
      (members.pick order).mapM Slot.ofMember := by
  induction order using List.reverseRecOn with
  | nil => rfl
  | append_singleton order key ih =>
    rw [Conversions.select] at ih ⊢
    rw [List.foldlM_append, ih, Members.pick_append, List.mapM_append, Members.pick_cons,
      Members.pick_nil, List.append_nil]
    rcases (members.pick order).mapM Slot.ofMember with e | found
    · rfl
    · rcases hkey : members.get? key with _ | j
      · simp [Slot.get?_convertMembers, hkey, bind, Except.bind, pure, Except.pure]
      · rcases hread : Slot.ofJson j with e | s
        · simp [Slot.get?_convertMembers, hkey, hread, Slot.ofMember, bind, Except.bind, Except.map]
        · simp [Slot.get?_convertMembers, hkey, hread, Slot.ofMember, bind, Except.bind, pure,
            Except.pure, Except.map]

/-- Among fields that are read, a field is found under its key. -/
theorem Slot.reads_of_mapM {fields : Members Slot} (h : members.mapM Slot.ofMember = .ok fields)
    (key : String) : members.Reads key (Members.get? key fields) := by
  rw [mapM_eq_ok_iff] at h
  induction h with
  | nil => exact .none
  | @cons m field ms fields hfield _ ih =>
    obtain ⟨k, j⟩ := m
    obtain ⟨s, hs, rfl⟩ := map_eq_ok.1 hfield
    rw [Members.Reads, Members.get?, Members.get?]
    split
    · exact .some hs
    · exact ih

/-- The keys of members stay when the members are read. -/
theorem Slot.keys_of_mapM {fields : Members Slot} (h : members.mapM Slot.ofMember = .ok fields) :
    fields.keys = members.keys := by
  rw [mapM_eq_ok_iff] at h
  induction h with
  | nil => rfl
  | cons hfield _ ih =>
    obtain ⟨s, _, rfl⟩ := map_eq_ok.1 hfield
    rw [Members.keys_cons, Members.keys_cons, ih]

/-- What is selected under a key is what is read under it. -/
theorem Conversions.get?_select {order : List String} {found : Members Slot} {s : Option Slot}
    (h : Conversions.select (Slot.convertMembers members) order = .ok found) (hkey : key ∈ order) :
    Members.get? key found = s ↔ members.Reads key s := by
  have hreads : members.Reads key (Members.get? key found) := by
    have := Slot.reads_of_mapM (select_eq members order ▸ h) key
    rwa [Members.Reads, Members.get?_pick hkey] at this
  exact ⟨fun hs => hs ▸ hreads, hreads.unique⟩

/-- Fields can be selected if all values under their keys can be read. -/
theorem Conversions.exists_select (members : Members Json) (order : List String)
    (h : ∀ key ∈ order, ∃ s, members.Reads key s) :
    ∃ found, Conversions.select (Slot.convertMembers members) order = .ok found := by
  rw [select_eq]
  refine exists_mapM_eq_ok_iff.2 fun m hm => ?_
  obtain ⟨hkey, hget⟩ := Members.mem_pick.1 hm
  obtain ⟨s, hs⟩ := h m.1 hkey
  rw [Members.Reads, hget] at hs
  rcases hs with hs | _
  exact ⟨_, map_eq_ok.2 ⟨_, hs, rfl⟩⟩

/-- A required value is the one under its key. -/
theorem requireKey_eq_ok_iff {α : Type} {type key : String} {found : Members α} {a : α} :
    requireKey type found key = .ok a ↔ Members.get? key found = some a := by
  rw [requireKey]
  split
  · simp_all
  · simp_all

/-- A required node is what the slot holds. -/
theorem requireNode_eq_ok_iff {type key : String} {s : Slot} {n : Node} :
    requireNode type key s = .ok n ↔ s = .node n := by
  rcases s with _ | _ | _
  · simp [requireNode]
  · simp [requireNode]
  · simp [requireNode]

/-! ## Objects -/

namespace Node

/-- The trees that are built from the members of an object. -/
inductive Built (members : Members Json) : Node → Prop
  | identifier {name : Slot}
      (type : members.get? "type" = some (.text NodeType.identifier.name))
      (hname : members.Reads "name" (some name)) :
      Built members (.identifier name (extraMembers .identifier members))
  | literal {value : Json}
      (type : members.get? "type" = some (.text NodeType.literal.name))
      (hvalue : members.get? "value" = some value) :
      Built members (.literal value ((members.get? "raw").getD .null)
        (extraMembers .literal members))
  | unary {kind : UnaryKind} {operator : Slot} {argument : Node} {leading : Option Slot}
      (type : members.get? "type" = some (.text kind.nodeType.name))
      (hoperator : members.Reads "operator" (some operator))
      (hargument : members.Reads "argument" (some (.node argument)))
      (hleading : members.Reads "prefix" leading) :
      Built members (.unary kind operator argument
        (leading.getD (.data (.boolean (kind == .unary)))) (extraMembers kind.nodeType members))
  | binary {kind : BinaryKind} {operator : Slot} {left right : Node}
      (type : members.get? "type" = some (.text kind.nodeType.name))
      (hoperator : members.Reads "operator" (some operator))
      (hleft : members.Reads "left" (some (.node left)))
      (hright : members.Reads "right" (some (.node right))) :
      Built members (.binary kind operator left right (extraMembers kind.nodeType members))
  | call {callee : Node} {arguments : Slot}
      (type : members.get? "type" = some (.text NodeType.call.name))
      (hcallee : members.Reads "callee" (some (.node callee)))
      (harguments : members.Reads "arguments" (some arguments)) :
      Built members (.call callee arguments (extraMembers .call members))
  | other {name : String} {fields : Members Slot}
      (type : members.get? "type" = some (.text name)) (hname : NodeType.ofName name = .other)
      (hfields : (members.filter fun m => isFieldKey m.1).mapM Slot.ofMember = .ok fields) :
      Built members (.other name fields (positions members))

/-! ### One type each -/

variable {n : Node}

/-- An identifier is read from its name. -/
theorem ofMembers_identifier_iff
    (htype : members.get? "type" = some (.text NodeType.identifier.name)) :
    ofMembers members (Slot.convertMembers members) = .ok n ↔
      ∃ name, members.Reads "name" (some name) ∧
        n = .identifier name (extraMembers .identifier members) := by
  unfold ofMembers
  simp only [htype, NodeType.ofName_name (t := .identifier) nofun, bind_eq_ok,
    requireKey_eq_ok_iff]
  constructor
  · rintro ⟨found, hfound, name, hname, ⟨⟩⟩
    rw [Conversions.get?_select hfound (by decide)] at hname
    exact ⟨name, hname, rfl⟩
  · rintro ⟨name, hname, rfl⟩
    obtain ⟨found, hfound⟩ := Conversions.exists_select members NodeType.identifier.keys
      (by simpa [NodeType.keys] using ⟨_, hname⟩)
    rw [← Conversions.get?_select hfound (by decide)] at hname
    exact ⟨found, hfound, name, hname, rfl⟩

/-- A literal is read from its value, whatever this is. -/
theorem ofMembers_literal_iff
    (htype : members.get? "type" = some (.text NodeType.literal.name)) :
    ofMembers members (Slot.convertMembers members) = .ok n ↔
      ∃ value, members.get? "value" = some value ∧
        n = .literal value ((members.get? "raw").getD .null) (extraMembers .literal members) := by
  unfold ofMembers
  simp only [htype, NodeType.ofName_name (t := .literal) nofun, bind_eq_ok, requireKey_eq_ok_iff]
  constructor
  · rintro ⟨value, hvalue, ⟨⟩⟩
    exact ⟨value, hvalue, rfl⟩
  · rintro ⟨value, hvalue, rfl⟩
    exact ⟨value, hvalue, rfl⟩

/-- A node with one operand is read from an operator, the operand and the place of the operator. -/
theorem ofMembers_unary_iff (kind : UnaryKind)
    (htype : members.get? "type" = some (.text kind.nodeType.name)) :
    ofMembers members (Slot.convertMembers members) = .ok n ↔
      ∃ operator argument leading, members.Reads "operator" (some operator) ∧
        members.Reads "argument" (some (.node argument)) ∧ members.Reads "prefix" leading ∧
        n = .unary kind operator argument (leading.getD (.data (.boolean (kind == .unary))))
          (extraMembers kind.nodeType members) := by
  have hmembers : ofMembers members (Slot.convertMembers members) =
      ofMembers.unaryOfMembers kind kind.nodeType.name (extraMembers kind.nodeType members)
        (Slot.convertMembers members) := by
    unfold ofMembers
    rw [htype]
    rcases kind <;> rfl
  have horder : kind.nodeType.keys = ["operator", "argument", "prefix"] := by rcases kind <;> rfl
  simp only [hmembers, ofMembers.unaryOfMembers, horder, bind_eq_ok, requireKey_eq_ok_iff,
    requireNode_eq_ok_iff]
  constructor
  · rintro ⟨found, hfound, operator, hoperator, _, hargument, argument, rfl, ⟨⟩⟩
    rw [Conversions.get?_select hfound (by decide)] at hoperator hargument
    exact ⟨operator, argument, _, hoperator, hargument,
      (Conversions.get?_select hfound (by decide)).1 rfl, rfl⟩
  · rintro ⟨operator, argument, leading, hoperator, hargument, hleading, rfl⟩
    obtain ⟨found, hfound⟩ := Conversions.exists_select members ["operator", "argument", "prefix"]
      (by simpa using ⟨⟨_, hoperator⟩, ⟨_, hargument⟩, ⟨_, hleading⟩⟩)
    rw [← Conversions.get?_select hfound (by decide)] at hoperator hargument hleading
    exact ⟨found, hfound, operator, hoperator, _, hargument, argument, rfl, by rw [hleading]; rfl⟩

/-- A node with two operands is read from an operator and the operands. -/
theorem ofMembers_binary_iff (kind : BinaryKind)
    (htype : members.get? "type" = some (.text kind.nodeType.name)) :
    ofMembers members (Slot.convertMembers members) = .ok n ↔
      ∃ operator left right, members.Reads "operator" (some operator) ∧
        members.Reads "left" (some (.node left)) ∧ members.Reads "right" (some (.node right)) ∧
        n = .binary kind operator left right (extraMembers kind.nodeType members) := by
  have hmembers : ofMembers members (Slot.convertMembers members) =
      ofMembers.binaryOfMembers kind kind.nodeType.name (extraMembers kind.nodeType members)
        (Slot.convertMembers members) := by
    unfold ofMembers
    rw [htype]
    rcases kind <;> rfl
  have horder : kind.nodeType.keys = ["operator", "left", "right"] := by rcases kind <;> rfl
  simp only [hmembers, ofMembers.binaryOfMembers, horder, bind_eq_ok, requireKey_eq_ok_iff,
    requireNode_eq_ok_iff]
  constructor
  · rintro ⟨found, hfound, operator, hoperator, _, hleft, _, hright, left, rfl, right, rfl, ⟨⟩⟩
    rw [Conversions.get?_select hfound (by decide)] at hoperator hleft hright
    exact ⟨operator, left, right, hoperator, hleft, hright, rfl⟩
  · rintro ⟨operator, left, right, hoperator, hleft, hright, rfl⟩
    obtain ⟨found, hfound⟩ := Conversions.exists_select members ["operator", "left", "right"]
      (by simpa using ⟨⟨_, hoperator⟩, ⟨_, hleft⟩, ⟨_, hright⟩⟩)
    rw [← Conversions.get?_select hfound (by decide)] at hoperator hleft hright
    exact ⟨found, hfound, operator, hoperator, _, hleft, _, hright, left, rfl, right, rfl, rfl⟩

/-- A call is read from what is called and the arguments. -/
theorem ofMembers_call_iff (htype : members.get? "type" = some (.text NodeType.call.name)) :
    ofMembers members (Slot.convertMembers members) = .ok n ↔
      ∃ callee arguments, members.Reads "callee" (some (.node callee)) ∧
        members.Reads "arguments" (some arguments) ∧
        n = .call callee arguments (extraMembers .call members) := by
  unfold ofMembers
  simp only [htype, NodeType.ofName_name (t := .call) nofun, bind_eq_ok, requireKey_eq_ok_iff,
    requireNode_eq_ok_iff]
  constructor
  · rintro ⟨found, hfound, _, hcallee, arguments, harguments, callee, rfl, ⟨⟩⟩
    rw [Conversions.get?_select hfound (by decide)] at hcallee harguments
    exact ⟨callee, arguments, hcallee, harguments, rfl⟩
  · rintro ⟨callee, arguments, hcallee, harguments, rfl⟩
    obtain ⟨found, hfound⟩ := Conversions.exists_select members NodeType.call.keys
      (by simpa [NodeType.keys] using ⟨⟨_, hcallee⟩, ⟨_, harguments⟩⟩)
    rw [← Conversions.get?_select hfound (by decide)] at hcallee harguments
    exact ⟨found, hfound, _, hcallee, arguments, harguments, callee, rfl, rfl⟩

/-- A node of another type is read from all its members. -/
theorem ofMembers_other_iff {type : String} (hkeys : members.keys.Nodup)
    (htype : members.get? "type" = some (.text type)) (hname : NodeType.ofName type = .other) :
    ofMembers members (Slot.convertMembers members) = .ok n ↔
      ∃ fields, (members.filter fun m => isFieldKey m.1).mapM Slot.ofMember = .ok fields ∧
        n = .other type fields (positions members) := by
  unfold ofMembers
  simp only [htype, hname, bind_eq_ok, Conversions.select_eq, Members.pick_filter_keys hkeys]
  constructor
  · rintro ⟨fields, hfields, ⟨⟩⟩
    exact ⟨fields, hfields, rfl⟩
  · rintro ⟨fields, hfields, rfl⟩
    exact ⟨fields, hfields, rfl⟩

/-- Only an object with a text as its type is read as a tree. -/
theorem exists_type_of_ofJson {j : Json} (h : Node.ofJson j = .ok n) :
    ∃ members type, j = .object members ∧ Members.get? "type" members = some (.text type) := by
  rcases j with _ | _ | _ | _ | _ | members
  case object =>
    change ofMembers members (Slot.convertMembers members) = .ok n at h
    unfold ofMembers at h
    split at h
    · rename_i type htype
      exact ⟨members, type, rfl, htype⟩
    · cases h
  all_goals cases h

/-- An object is read as a tree that is built from its members, and as no other. -/
theorem ofJson_object_iff (hkeys : members.keys.Nodup) :
    Node.ofJson (.object members) = .ok n ↔ Built members n := by
  constructor
  · intro hread
    obtain ⟨_, type, ⟨⟩, htype⟩ := exists_type_of_ofJson hread
    rcases hname : NodeType.ofName type
    case other =>
      obtain ⟨_, hfields, rfl⟩ := (ofMembers_other_iff hkeys htype hname).1 hread
      exact .other htype hname hfields
    all_goals obtain rfl := NodeType.eq_name_of_ofName hname nofun
    case identifier =>
      obtain ⟨_, hname, rfl⟩ := (ofMembers_identifier_iff htype).1 hread
      exact .identifier htype hname
    case literal =>
      obtain ⟨_, hvalue, rfl⟩ := (ofMembers_literal_iff htype).1 hread
      exact .literal htype hvalue
    case unary =>
      obtain ⟨_, _, _, hoperator, hargument, hleading, rfl⟩ :=
        (ofMembers_unary_iff .unary htype).1 hread
      exact .unary htype hoperator hargument hleading
    case update =>
      obtain ⟨_, _, _, hoperator, hargument, hleading, rfl⟩ :=
        (ofMembers_unary_iff .update htype).1 hread
      exact .unary htype hoperator hargument hleading
    case binary =>
      obtain ⟨_, _, _, hoperator, hleft, hright, rfl⟩ :=
        (ofMembers_binary_iff .binary htype).1 hread
      exact .binary htype hoperator hleft hright
    case logical =>
      obtain ⟨_, _, _, hoperator, hleft, hright, rfl⟩ :=
        (ofMembers_binary_iff .logical htype).1 hread
      exact .binary htype hoperator hleft hright
    case call =>
      obtain ⟨_, _, hcallee, harguments, rfl⟩ := (ofMembers_call_iff htype).1 hread
      exact .call htype hcallee harguments
  · rintro (⟨htype, hname⟩ | ⟨htype, hvalue⟩ | ⟨htype, hoperator, hargument, hleading⟩ |
      ⟨htype, hoperator, hleft, hright⟩ | ⟨htype, hcallee, harguments⟩ | ⟨htype, hname, hfields⟩)
    · exact (ofMembers_identifier_iff htype).2 ⟨_, hname, rfl⟩
    · exact (ofMembers_literal_iff htype).2 ⟨_, hvalue, rfl⟩
    · exact (ofMembers_unary_iff _ htype).2 ⟨_, _, _, hoperator, hargument, hleading, rfl⟩
    · exact (ofMembers_binary_iff _ htype).2 ⟨_, _, _, hoperator, hleft, hright, rfl⟩
    · exact (ofMembers_call_iff htype).2 ⟨_, _, hcallee, harguments, rfl⟩
    · exact (ofMembers_other_iff hkeys htype hname).2 ⟨_, hfields, rfl⟩

end Node

/-- What is read as a tree is read as a node where it stands under a key. -/
theorem Slot.ofJson_eq_node {j : Json} {n : Node} (h : Node.ofJson j = .ok n) :
    Slot.ofJson j = .ok (.node n) := by
  obtain ⟨members, type, rfl, htype⟩ := Node.exists_type_of_ofJson h
  rw [Slot.ofJson_object, Members.hasKey_eq_isSome, htype, Option.isSome_some, if_pos rfl, h]
  rfl

end TaintWeave
