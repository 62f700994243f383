import TaintWeave.Node.Display
import TaintWeave.Proofs.Node.Children
import TaintWeave.Proofs.Outcome

/-!
# Trees that can be shown

A tree is shown by showing its nodes one after the other, wherever they stand. Only calls are
particular about the place: their arguments have to be nodes in a list, or something empty. Nothing
else stands in the way.

* `Slot.IsArguments`: what can be shown as the arguments of a call.
* `Node.exists_toSexp_iff`: a tree can be shown if the arguments of all its calls can be.
-/

namespace TaintWeave

/-! ## Slots -/

namespace Slot

/-- The nodes in a list of slots are shown one after the other, if those in each slot are. -/
theorem listNodeSexps_of_forall {ss : List Slot}
    (h : ∀ s ∈ ss, s.nodeSexps = s.nodes.mapM Node.toSexp) :
    listNodeSexps ss = (listNodes ss).mapM Node.toSexp := by
  induction ss with
  | nil => rfl
  | cons s ss ih =>
    rw [List.forall_mem_cons] at h
    rw [listNodeSexps, listNodes, List.mapM_append, h.1, ih h.2]

/-- The nodes in a slot are shown one after the other. -/
theorem nodeSexps_eq (s : Slot) : s.nodeSexps = s.nodes.mapM Node.toSexp := by
  induction s using induction_on_items with
  | node n =>
    rw [nodeSexps, nodes, List.mapM_cons]
    rcases n.toSexp with fault | e
    · rfl
    · rfl
  | list items ih => exact listNodeSexps_of_forall ih
  | data j => rfl

/-- The nodes in the slots under keys are shown one after the other. -/
theorem fieldSexps_eq (fields : List (String × Slot)) :
    fieldSexps fields = (fieldNodes fields).mapM Node.toSexp := by
  induction fields with
  | nil => rfl
  | cons field rest ih =>
    have hfirst : fieldNodes (field :: rest) = field.2.nodes ++ fieldNodes rest := List.flatMap_cons
    rw [fieldSexps, ih, nodeSexps_eq, hfirst, List.mapM_append]

/-! ## Arguments -/

/-- What can be shown as the arguments of a call: nodes in a list, or something empty. -/
inductive IsArguments : Slot → Prop
  | list {items : List Slot} (h : ∀ s ∈ items, ∃ n, s = .node n) : IsArguments (.list items)
  | text : IsArguments (.text "")
  | object : IsArguments (.data (.object []))

/-- A list can be shown as arguments if all its items are nodes. -/
theorem isArguments_list_iff {items : List Slot} :
    (Slot.list items).IsArguments ↔ ∀ s ∈ items, ∃ n, s = .node n := by
  constructor
  · rintro ⟨h⟩
    exact h
  · exact .list

/-- Arguments stay arguments if their nodes are replaced, and were arguments before. -/
theorem isArguments_map {s : Slot} (f : Node → Node) : (s.map f).IsArguments ↔ s.IsArguments := by
  cases s with
  | node n =>
    rw [map]
    exact iff_of_false (fun h => by cases h) fun h => by cases h
  | list items =>
    rw [map, mapList_eq, isArguments_list_iff, isArguments_list_iff, List.forall_mem_map]
    refine forall₂_congr fun s _ => ?_
    cases s <;> simp [map]
  | data j => rw [map]

/-- The arguments in a list can be shown if they are nodes that can be. -/
theorem exists_argumentListSexps_iff {items : List Slot} :
    (∃ es, argumentListSexps items = .ok es) ↔
      (Slot.list items).IsArguments ∧ ∀ n ∈ listNodes items, ∃ e, n.toSexp = .ok e := by
  rw [isArguments_list_iff]
  induction items with
  | nil => simp [argumentListSexps, listNodes]
  | cons s rest ih =>
    cases s with
    | node n =>
      simp [argumentListSexps, bind_eq_ok, pure, Except.pure, listNodes, nodes, ih]
      tauto
    | list items => simp [argumentListSexps]
    | data j => simp [argumentListSexps]

/-- The arguments of a call can be shown if they are arguments, and nodes that can be shown. -/
theorem exists_argumentSexps_iff {s : Slot} :
    (∃ es, s.argumentSexps = .ok es) ↔
      s.IsArguments ∧ ∀ n ∈ s.nodes, ∃ e, n.toSexp = .ok e := by
  cases s with
  | node n => exact iff_of_false (fun ⟨_, h⟩ => by cases h) fun h => by cases h.1
  | list items => exact exists_argumentListSexps_iff
  | data j =>
    have hnodes : ∀ n ∈ (data j).nodes, ∃ e, n.toSexp = .ok e := List.forall_mem_nil _
    rw [and_iff_left hnodes]
    cases j with
    | text s =>
      by_cases hs : s = ""
      · subst hs
        exact iff_of_true ⟨[], rfl⟩ .text
      · refine iff_of_false ?_ fun h => ?_
        · simp [argumentSexps, hs]
        · cases h
          exact hs rfl
    | object members =>
      cases members with
      | nil => exact iff_of_true ⟨[], rfl⟩ .object
      | cons m rest => exact iff_of_false (fun ⟨_, h⟩ => by cases h) fun h => by cases h
    | null | boolean _ | number _ | array _ =>
      exact iff_of_false (fun ⟨_, h⟩ => by cases h) fun h => by cases h

end Slot

/-! ## Nodes -/

namespace Node

/-- What stands as the arguments of a call. -/
def arguments? : Node → Option Slot
  | call _ arguments _ => some arguments
  | _ => none

/-- A node is no call, or a call whose arguments can be shown. -/
def ShowsArguments (n : Node) : Prop := ∀ s, n.arguments? = some s → s.IsArguments

/-- A node that is no call has no arguments to show. -/
theorem showsArguments_of_arguments? {n : Node} (h : n.arguments? = none) : n.ShowsArguments := by
  intro s hs
  rw [h] at hs
  cases hs

/-- A node can be shown if its children can be, and its arguments if it is a call. -/
theorem exists_toSexp_iff_children (n : Node) :
    (∃ e, n.toSexp = .ok e) ↔ n.ShowsArguments ∧ ∀ c ∈ n.children, ∃ e, c.toSexp = .ok e := by
  rcases n with ⟨name, extra⟩ | ⟨value, raw, extra⟩ | ⟨kind, operator, argument, leading, extra⟩ |
    ⟨kind, operator, left, right, extra⟩ | ⟨callee, arguments, extra⟩ | ⟨type, fields, extra⟩
  case identifier => simp [toSexp, ShowsArguments, arguments?, children]
  case literal => simp [toSexp, ShowsArguments, arguments?, children]
  case unary =>
    simp [toSexp, bind_eq_ok, pure, Except.pure, ShowsArguments, arguments?, children]
  case binary =>
    simp [toSexp, bind_eq_ok, pure, Except.pure, ShowsArguments, arguments?, children]
  case call =>
    simp [toSexp, bind_eq_ok, pure, Except.pure, ShowsArguments, arguments?, children,
      Slot.exists_argumentSexps_iff]
    tauto
  case other =>
    simp [toSexp, bind_eq_ok, pure, Except.pure, ShowsArguments, arguments?, children,
      Slot.fieldSexps_eq, exists_mapM_eq_ok_iff]

/-- A tree can be shown if the arguments of all its calls can be. -/
theorem exists_toSexp_iff (n : Node) :
    (∃ e, n.toSexp = .ok e) ↔ ∀ m ∈ n.preorder, m.ShowsArguments := by
  induction n using Node.induction_on_children with
  | step n ih =>
    rw [exists_toSexp_iff_children, forall_mem_preorder]
    exact and_congr_right fun _ => forall₂_congr ih

end Node

end TaintWeave
