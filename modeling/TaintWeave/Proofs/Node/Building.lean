import TaintWeave.Node.Walk
import TaintWeave.Proofs.Node.Reading

/-!
# Building a node

A node is read in two steps: first the values that are searched for other nodes, one after the
other, and then the node is built from what has been read. Of all that can be wrong with the second
step, a missing key comes first, and then a value that is no node where one is required.

* `Node.ofJson_eq_build`: the two steps.
* `Node.error?_build`: what is wrong with the second one.
-/

namespace TaintWeave

/-! ## Two steps -/

namespace Node

variable {members : Members Json} {type : String}

/-- What is selected depends on what is found under the keys. -/
theorem select_congr {conversions conversions' : Conversions} {keys : List String}
    (h : ∀ key ∈ keys, Members.get? key conversions = Members.get? key conversions') :
    conversions.select keys = conversions'.select keys :=
  foldlM_congr (fun key hkey found => by rw [h key hkey]) []

/-- A node is made of what is selected under the keys that are searched, whatever the values. -/
theorem exists_ofMembers_eq_select_bind
    (htype : Members.get? "type" members = some (.text type)) :
    ∃ make : Members Slot → Except Diagnostic Node, ∀ conversions : Conversions,
      ofMembers members conversions =
        conversions.select ((NodeType.ofName type).searchedKeys members) >>= make := by
  unfold ofMembers
  rw [htype]
  dsimp only
  cases hname : NodeType.ofName type with
  | literal => exact ⟨fun _ => _, fun _ => rfl⟩
  | identifier | unary | update | binary | logical | call | other => exact ⟨_, fun _ => rfl⟩

/-- What has been read in a node is read under the keys that are searched. -/
theorem reads_searched {fields : Members Slot} {key : String}
    (h : (searched type members).mapM Slot.ofMember = .ok fields)
    (hkey : key ∈ (NodeType.ofName type).searchedKeys members) :
    members.Reads key (Members.get? key fields) := by
  have hpick : searched type members = members.pick ((NodeType.ofName type).searchedKeys members) :=
    rfl
  have hreads := Slot.reads_of_mapM h key
  rwa [hpick, Members.Reads, Members.get?_pick hkey] at hreads

/-- What has been read in a node is selected once more as it is. -/
theorem select_fields {fields : Members Slot}
    (h : (searched type members).mapM Slot.ofMember = .ok fields) :
    Conversions.select (fields.map fun f => (f.1, .ok f.2))
      ((NodeType.ofName type).searchedKeys members) = .ok fields := by
  have hselect : (Slot.convertMembers members : Conversions).select
      ((NodeType.ofName type).searchedKeys members) = .ok fields :=
    (Conversions.select_eq members _).trans h
  rw [← hselect]
  refine select_congr fun key hkey => ?_
  have hreads := reads_searched h hkey
  rw [Members.get?_map (fun _ s => Except.ok s), Slot.get?_convertMembers]
  cases hs : Members.get? key fields with
  | none =>
    rw [hs, Members.reads_none] at hreads
    rw [hreads, Option.map_none, Option.map_none]
  | some s =>
    rw [hs] at hreads
    obtain ⟨j, hj, hread⟩ := Members.reads_some.1 hreads
    rw [hj, Option.map_some, Option.map_some, hread]

/-- A node is built from what has been read in it. -/
theorem ofJson_eq_build (htype : Members.get? "type" members = some (.text type)) :
    Node.ofJson (.object members) =
      (searched type members).mapM Slot.ofMember >>= build members := by
  obtain ⟨make, hmake⟩ := exists_ofMembers_eq_select_bind htype
  have hselect : (Slot.convertMembers members : Conversions).select
      ((NodeType.ofName type).searchedKeys members) =
        (searched type members).mapM Slot.ofMember := Conversions.select_eq members _
  rw [Node.ofJson, hmake, hselect]
  rcases hfields : (searched type members).mapM Slot.ofMember with diagnostic | fields
  · rfl
  · have hbuild : build members fields = make fields := by
      rw [build, hmake, select_fields hfields]
      rfl
    exact hbuild.symm

end Node

/-! ## What a node requires -/

/-- The keys that a node type requires, in order. -/
def NodeType.requiredKeys : NodeType → List String
  | identifier => ["name"]
  | literal => ["value"]
  | unary | update => ["operator", "argument"]
  | binary | logical => ["operator", "left", "right"]
  | call => ["callee", "arguments"]
  | other => []

/-- The keys under which a node type requires a node, in order. -/
def NodeType.nodeKeys : NodeType → List String
  | unary | update => ["argument"]
  | binary | logical => ["left", "right"]
  | call => ["callee"]
  | identifier | literal | other => []

/-- What a node type requires is searched for nodes, unless it is the value of a literal. -/
theorem NodeType.mem_searchedKeys_of_mem_requiredKeys {t : NodeType} (ht : t ≠ .literal)
    (members : Members Json) {key : String} (hkey : key ∈ t.requiredKeys) :
    key ∈ t.searchedKeys members := by
  have hkeys : ∀ key ∈ t.requiredKeys, key ∈ t.keys := by cases t <;> decide
  cases t with
  | literal => exact absurd rfl ht
  | other => cases hkey
  | identifier | unary | update | binary | logical | call => exact hkeys key hkey

namespace Node

variable {members : Members Json} {type : String} {fields : Members Slot}

/-- The first of some keys that is missing. -/
def missing? {α : Type} (type : String) (keys : List String) (found : Members α) :
    Option Diagnostic :=
  keys.findSome? fun key => error? (requireKey type found key)

/-- The first of some keys under which there is something that is no node. -/
def misplaced? (type : String) (keys : List String) (fields : Members Slot) : Option Diagnostic :=
  keys.findSome? fun key => (Members.get? key fields).bind fun s => error? (requireNode type key s)

/-- What is missing among the members is missing among what has been read. -/
theorem missing?_fields (h : (searched type members).mapM Slot.ofMember = .ok fields)
    (ht : NodeType.ofName type ≠ .literal) :
    missing? type (NodeType.ofName type).requiredKeys fields =
      missing? type (NodeType.ofName type).requiredKeys members := by
  refine findSome?_congr fun key hkey => ?_
  have hreads := reads_searched h (NodeType.mem_searchedKeys_of_mem_requiredKeys ht members hkey)
  rw [requireKey, requireKey]
  cases hs : Members.get? key fields with
  | none =>
    rw [hs, Members.reads_none] at hreads
    rw [hreads]
    rfl
  | some s =>
    rw [hs] at hreads
    obtain ⟨j, hj, -⟩ := Members.reads_some.1 hreads
    rw [hj]
    rfl

/-- The first error in a node with one operand. -/
theorem error?_unaryOfMembers {kind : UnaryKind} {extra : Members Json} {conversions : Conversions}
    (h : conversions.select kind.nodeType.keys = .ok fields) :
    error? (ofMembers.unaryOfMembers kind type extra conversions) =
      (missing? type ["operator", "argument"] fields).or (misplaced? type ["argument"] fields) := by
  unfold ofMembers.unaryOfMembers missing? misplaced?
  rw [h]
  simp only [bind, Except.bind, List.findSome?_cons, List.findSome?_nil]
  cases requireKey type fields "operator" with
  | error e => rfl
  | ok operator =>
    cases hargument : requireKey type fields "argument" with
    | error e => rfl
    | ok argument =>
      rw [requireKey_eq_ok_iff.1 hargument]
      simp only [Option.bind_some]
      cases requireNode type "argument" argument with
      | error e => rfl
      | ok n => rfl

/-- The first error in a node with two operands. -/
theorem error?_binaryOfMembers {kind : BinaryKind} {extra : Members Json}
    {conversions : Conversions} (h : conversions.select kind.nodeType.keys = .ok fields) :
    error? (ofMembers.binaryOfMembers kind type extra conversions) =
      (missing? type ["operator", "left", "right"] fields).or
        (misplaced? type ["left", "right"] fields) := by
  unfold ofMembers.binaryOfMembers missing? misplaced?
  rw [h]
  simp only [bind, Except.bind, List.findSome?_cons, List.findSome?_nil]
  cases requireKey type fields "operator" with
  | error e => rfl
  | ok operator =>
    cases hleft : requireKey type fields "left" with
    | error e => rfl
    | ok left =>
      cases hright : requireKey type fields "right" with
      | error e => rfl
      | ok right =>
        rw [requireKey_eq_ok_iff.1 hleft, requireKey_eq_ok_iff.1 hright]
        simp only [Option.bind_some]
        cases requireNode type "left" left with
        | error e => rfl
        | ok n =>
          cases requireNode type "right" right with
          | error e => rfl
          | ok m => rfl

/-- The first error when a node is built from what has been read in it: missing keys come before
    values that are no nodes. -/
theorem error?_build (htype : Members.get? "type" members = some (.text type))
    (h : (searched type members).mapM Slot.ofMember = .ok fields) :
    error? (build members fields) =
      (missing? type (NodeType.ofName type).requiredKeys members).or
        (misplaced? type (NodeType.ofName type).nodeKeys fields) := by
  have hselect := select_fields h
  have hmissing := missing?_fields h
  unfold build ofMembers
  rw [htype]
  dsimp only
  cases hname : NodeType.ofName type with
  | literal =>
    simp only [missing?, NodeType.requiredKeys, List.findSome?_cons, List.findSome?_nil]
    cases requireKey type members "value" with
    | error e => rfl
    | ok value => rfl
  | identifier =>
    rw [hname] at hselect hmissing
    change Conversions.select _ NodeType.identifier.keys = _ at hselect
    rw [← hmissing nofun]
    dsimp only
    rw [hselect]
    simp only [missing?, NodeType.requiredKeys, List.findSome?_cons, List.findSome?_nil, bind,
      Except.bind]
    cases requireKey type fields "name" with
    | error e => rfl
    | ok name => rfl
  | unary =>
    rw [hname] at hselect hmissing
    rw [← hmissing nofun]
    exact error?_unaryOfMembers hselect
  | update =>
    rw [hname] at hselect hmissing
    rw [← hmissing nofun]
    exact error?_unaryOfMembers hselect
  | binary =>
    rw [hname] at hselect hmissing
    rw [← hmissing nofun]
    exact error?_binaryOfMembers hselect
  | logical =>
    rw [hname] at hselect hmissing
    rw [← hmissing nofun]
    exact error?_binaryOfMembers hselect
  | call =>
    rw [hname] at hselect hmissing
    change Conversions.select _ NodeType.call.keys = _ at hselect
    rw [← hmissing nofun]
    dsimp only
    rw [hselect]
    simp only [missing?, misplaced?, NodeType.requiredKeys, NodeType.nodeKeys,
      List.findSome?_cons, List.findSome?_nil, bind, Except.bind]
    cases hcallee : requireKey type fields "callee" with
    | error e => rfl
    | ok callee =>
      cases requireKey type fields "arguments" with
      | error e => rfl
      | ok arguments =>
        rw [requireKey_eq_ok_iff.1 hcallee]
        simp only [Option.bind_some]
        cases requireNode type "callee" callee with
        | error e => rfl
        | ok n => rfl
  | other =>
    rw [hname] at hselect
    change error? (Conversions.select _ (NodeType.other.searchedKeys members) >>= _) = _
    rw [hselect]
    rfl

end Node

end TaintWeave
