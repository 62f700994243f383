import Mathlib.Logic.Basic
import TaintWeave.Json.Reader
import TaintWeave.Proofs.Arrangement
import TaintWeave.Proofs.Outcome

/-!
# Documents with distinct keys

An object of a document has each of its keys once. Documents that are read from a text are of this
kind: a second value under a key takes the place of the first.

* `Json.parts`, `Json.induction_on_parts`: documents by the documents right below them.
* `Json.Distinct`: no object has a key twice; `Json.distinct_array` and `Json.distinct_object`
  go down one level.
* `Json.distinct_of_read`: a document that is read has distinct keys.
-/

namespace TaintWeave

namespace Json

/-! ## Parts -/

/-- The documents right below a document. -/
def parts : Json → List Json
  | array items => items
  | object members => members.map (·.2)
  | _ => []

/-- A value under a key is a part. -/
theorem mem_parts_object {members : Members Json} {m : String × Json} (h : m ∈ members) :
    m.2 ∈ (object members).parts := List.mem_map.2 ⟨m, h, rfl⟩

/-- Parts are smaller. -/
theorem sizeOf_lt_of_mem_parts {i j : Json} (h : i ∈ j.parts) : sizeOf i < sizeOf j := by
  rcases j with _ | b | n | s | items | members
  case array =>
    have : sizeOf i < sizeOf items := List.sizeOf_lt_of_mem h
    simp only [array.sizeOf_spec]
    omega
  case object =>
    obtain ⟨⟨key, value⟩, hm, rfl⟩ := List.mem_map.1 h
    have := List.sizeOf_lt_of_mem hm
    simp only [object.sizeOf_spec, Prod.mk.sizeOf_spec] at this ⊢
    omega
  all_goals exact absurd h List.not_mem_nil

/-- What passes from the parts to the document holds of every document. -/
theorem induction_on_parts {P : Json → Prop} (j : Json)
    (step : ∀ j : Json, (∀ i ∈ j.parts, P i) → P j) : P j :=
  step j fun i _ => induction_on_parts i step
termination_by sizeOf j
decreasing_by exact sizeOf_lt_of_mem_parts ‹_›

/-! ## Distinct keys -/

mutual

/-- The objects in a document. -/
def objects : Json → List (Members Json)
  | array items => itemObjects items
  | object members => members :: memberObjects members
  | _ => []

/-- The objects in the items of an array. -/
def itemObjects : List Json → List (Members Json)
  | [] => []
  | j :: js => objects j ++ itemObjects js

/-- The objects in the members of an object. -/
def memberObjects : List (String × Json) → List (Members Json)
  | [] => []
  | (_, j) :: rest => objects j ++ memberObjects rest

end

/-- The objects in the items of an array are those in one of them. -/
theorem itemObjects_eq (items : List Json) : itemObjects items = items.flatMap objects := by
  induction items with
  | nil => simp [itemObjects]
  | cons j js ih => simp [itemObjects, ih]

/-- The objects in the members of an object are those in one of the values. -/
theorem memberObjects_eq (members : Members Json) :
    memberObjects members = members.flatMap fun m => objects m.2 := by
  induction members with
  | nil => simp [memberObjects]
  | cons m rest ih => simp [memberObjects, ih]

/-- No object in the document has a key twice. -/
def Distinct (j : Json) : Prop := ∀ members ∈ j.objects, (Members.keys members).Nodup

instance (j : Json) : Decidable j.Distinct :=
  inferInstanceAs (Decidable (∀ members ∈ j.objects, (Members.keys members).Nodup))

/-- An array has distinct keys if its items do. -/
theorem distinct_array {items : List Json} : (array items).Distinct ↔ ∀ j ∈ items, j.Distinct := by
  simp only [Distinct, objects, itemObjects_eq, List.mem_flatMap]
  constructor
  · intro h j hj members hmembers
    exact h members ⟨j, hj, hmembers⟩
  · rintro h members ⟨j, hj, hmembers⟩
    exact h j hj members hmembers

/-- An object has distinct keys if its own are and its values have. -/
theorem distinct_object {members : Members Json} :
    (object members).Distinct ↔ (Members.keys members).Nodup ∧ ∀ m ∈ members, m.2.Distinct := by
  simp only [Distinct, objects, memberObjects_eq, List.forall_mem_cons, List.mem_flatMap]
  refine and_congr_right fun _ => ?_
  constructor
  · intro h m hm inner hinner
    exact h inner ⟨m, hm, hinner⟩
  · rintro h inner ⟨m, hm, hinner⟩
    exact h m hm inner hinner

/-- The parts of a document with distinct keys have distinct keys. -/
theorem Distinct.of_mem_parts {i j : Json} (h : j.Distinct) (hi : i ∈ j.parts) : i.Distinct := by
  rcases j with _ | b | n | s | items | members
  case array => exact distinct_array.1 h i hi
  case object =>
    obtain ⟨m, hm, rfl⟩ := List.mem_map.1 hi
    exact (distinct_object.1 h).2 m hm
  all_goals exact absurd hi List.not_mem_nil

/-! ## Reading -/

/-- The values in a token have distinct keys. -/
def Token.Distinct : Token → Prop
  | .literal value => value.Distinct
  | _ => True

/-- The values around a place have distinct keys. -/
def Context.Distinct : Context → Prop
  | .document => True
  | .item before outer => (∀ j ∈ before, j.Distinct) ∧ outer.Distinct
  | .member before _ outer => (object before).Distinct ∧ outer.Distinct

/-- All values so far have distinct keys. -/
def State.Distinct : State → Prop
  | .value context => context.Distinct
  | .firstItem outer | .firstKey outer => outer.Distinct
  | .key before outer | .colon before _ outer => (object before).Distinct ∧ outer.Distinct
  | .complete j context => j.Distinct ∧ context.Distinct

/-- An object with a value put under a key has distinct keys. -/
theorem Distinct.insert {members : Members Json} {value : Json} (h : (object members).Distinct)
    (hvalue : value.Distinct) (key : String) : (object (members.insert key value)).Distinct := by
  rw [distinct_object] at h ⊢
  refine ⟨Members.nodup_keys_insert h.1 key value, fun m hm => ?_⟩
  rcases Members.mem_of_mem_insert hm with rfl | hm
  · exact hvalue
  · exact h.2 m hm

/-- A number is read as a token with distinct keys. -/
theorem distinct_of_scanNumber {cs : List Char} {found : Token × Nat}
    (h : scanNumber cs = some found) : found.1.Distinct := by
  have hscalar : ∀ n, Token.Distinct (.literal (number n)) := fun _ _ hmem =>
    absurd hmem List.not_mem_nil
  have hinteger : ∀ (fits : Prop) [Decidable fits] (n : Number),
      Token.Distinct (if fits then .literal (number n) else .longNumeral) := by
    intro fits _ n
    split
    · exact hscalar n
    · trivial
  simp only [scanNumber, ite_eq_iff, Option.some.injEq, reduceCtorEq, and_false, false_or] at h
  rcases h with ⟨-, ⟨-, rfl⟩ | ⟨-, rfl⟩⟩
  · exact hinteger _ _
  · exact hscalar _

/-- A token has distinct keys. -/
theorem distinct_scanToken (offset : Nat) (cs : List Char) : (scanToken offset cs).1.Distinct := by
  have hwords : ∀ word ∈ words, word.2.Distinct := by decide
  unfold scanToken
  split
  all_goals try trivial
  · split <;> trivial
  · split
    · exact distinct_of_scanNumber ‹_›
    · split
      · rename_i hfind
        exact hwords _ (List.mem_of_find?_eq_some hfind)
      · trivial

/-- All tokens of a text have distinct keys. -/
theorem distinct_of_mem_tokensFrom (offset : Nat) (cs : List Char) :
    ∀ placed ∈ tokensFrom offset cs, placed.2.Distinct := by
  fun_induction tokensFrom offset cs with
  | case1 offset => exact fun _ h => absurd h List.not_mem_nil
  | case2 offset c cs _ ih => exact ih
  | case3 offset c cs _ token length hscan ih =>
    intro placed hplaced
    rcases List.mem_cons.1 hplaced with rfl | hplaced
    · have := distinct_scanToken offset (c :: cs)
      rwa [hscan] at this
    · exact ih placed hplaced

/-- What is taken where a value is due has distinct keys. -/
theorem State.distinct_takeValue {offset : Nat} {context : Context} {token : Token} {state : State}
    (h : context.Distinct) (htoken : token.Distinct)
    (hstep : takeValue offset context token = .ok state) : state.Distinct := by
  unfold takeValue at hstep
  split at hstep <;> cases hstep
  · exact ⟨htoken, h⟩
  · exact ⟨fun _ hmem => absurd hmem List.not_mem_nil, h⟩
  · exact h
  · exact h

/-- What is taken where a key is due leaves the keys before distinct. -/
theorem State.distinct_takeKey {offset : Nat} {before : Members Json} {outer : Context}
    {token : Token} {state : State} (h : (object before).Distinct ∧ outer.Distinct)
    (hstep : takeKey offset before outer token = .ok state) : state.Distinct := by
  unfold takeKey at hstep
  split at hstep <;> cases hstep
  exact h

/-- A complete value is put under its key or behind the items before it. -/
theorem State.distinct_takeSeparator {offset : Nat} {value : Json} {context : Context}
    {token : Token} {state : State} (hvalue : value.Distinct) (h : context.Distinct)
    (hstep : takeSeparator offset value context token = .ok state) : state.Distinct := by
  unfold takeSeparator at hstep
  split at hstep <;> cases hstep
  · exact ⟨List.forall_mem_cons.2 ⟨hvalue, h.1⟩, h.2⟩
  · refine ⟨distinct_array.2 fun j hj => ?_, h.2⟩
    exact List.forall_mem_cons.2 ⟨hvalue, h.1⟩ j (List.mem_reverse.1 hj)
  · exact ⟨h.1.insert hvalue _, h.2⟩
  · exact ⟨h.1.insert hvalue _, h.2⟩

/-- A token with distinct keys keeps the keys distinct. -/
theorem State.Distinct.step {state state' : State} {placed : Nat × Token}
    (h : state.Distinct) (htoken : placed.2.Distinct)
    (hstep : Json.step state placed = .ok state') : state'.Distinct := by
  have hempty : (object []).Distinct := by decide
  unfold Json.step at hstep
  rcases state with context | outer | outer | ⟨before, outer⟩ | ⟨before, key, outer⟩ |
    ⟨value, context⟩
  case value => exact distinct_takeValue h htoken hstep
  case firstItem =>
    dsimp only at hstep
    split at hstep
    · cases hstep
      exact ⟨by decide, h⟩
    · have hitem : (Context.item [] outer).Distinct :=
        ⟨fun _ hmem => absurd hmem List.not_mem_nil, h⟩
      exact distinct_takeValue hitem htoken hstep
  case firstKey =>
    dsimp only at hstep
    split at hstep
    · cases hstep
      exact ⟨hempty, h⟩
    · exact distinct_takeKey ⟨hempty, h⟩ hstep
  case key => exact distinct_takeKey h hstep
  case colon =>
    dsimp only at hstep
    split at hstep <;> cases hstep
    exact h
  case complete => exact distinct_takeSeparator h.1 h.2 hstep

/-- A document that is read has distinct keys. -/
theorem distinct_of_read {s : String} {document : Json} (h : read s = .ok document) :
    document.Distinct := by
  unfold read at h
  split at h
  · cases h
  · rw [bind_eq_ok] at h
    obtain ⟨state, hsteps, hfinish⟩ := h
    -- The tokens of the text are at hand in every step, for the invariant is about the first ones.
    have hstate : (∀ placed ∈ tokens s, placed.2.Distinct) → state.Distinct :=
      foldlM_ok_induction (P := fun done state => (∀ placed ∈ done, placed.2.Distinct) →
          state.Distinct) hsteps (fun _ => trivial) fun done state placed state' ih hstep hdone =>
        (ih fun p hp => hdone p (List.mem_append_left _ hp)).step
          (hdone placed (List.mem_append_right _ (List.mem_singleton_self placed))) hstep
    replace hstate := hstate (distinct_of_mem_tokensFrom 0 s.toList)
    unfold finish at hfinish
    split at hfinish <;> cases hfinish
    exact hstate.1

end Json

end TaintWeave
