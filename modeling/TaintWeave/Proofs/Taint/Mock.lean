import Mathlib.Data.List.Basic
import TaintWeave.Taint.Mock
import TaintWeave.Proofs.Taint.Raw

/-!
# Mocks by their natives

The categories of mocks differ in how many operands they take and in when they label a result. For
the rest a mock is its native: it applies it to the raw operands, and puts a label on what comes
out, or not. That is said here of all mocks at once.

* `Mock.label?`: the label on the result, from the labels of the operands.
* `Mock.call_eq`: a mock is its native on the raw operands, between the report of a sink that is
  reached and the label on the result.
* `Mock.run_call`: the outcome is that of the native, with the label put on.
* `Mock.call_of_length_ne`: no mock takes a wrong number of operands.
-/

namespace TaintWeave

/-- The label of an operation with two operands lists them like that of any operation. -/
theorem Label.binary_eq_intercalate (symbol left right : String) :
    Label.binary symbol left right =
      symbol ++ "(" ++ String.intercalate "," [left, right] ++ ")" := by
  have hlist : String.intercalate "," [left, right] = left ++ "," ++ right := rfl
  rw [hlist, Label.binary]
  simp only [String.append_assoc]

/-- In memory, the values with labels are tainted. -/
theorem Substrate.inMemory_isTainted (v : Value) : inMemory.isTainted v = v.label?.isSome := by
  cases v <;> rfl

/-- What stands for a value in the label of an operation on it. -/
def Value.inLabel (v : Value) : String := v.label?.getD (Label.value v)

/-- A value without a label stands in a label as a text. -/
theorem Value.Untainted.inLabel_eq {v : Value} (h : v.Untainted) : v.inLabel = Label.value v := by
  rw [inLabel, h, Option.getD_none]

/-- A value with a label stands in a label as that. -/
theorem Value.inLabel_of_label? {v : Value} {label : String} (h : v.label? = some label) :
    v.inLabel = label := by
  rw [inLabel, h, Option.getD_some]

namespace Mock

variable (mock : Mock)

/-- The label on the result of a mock, if there is one: from tainted operands, and never for an
    equality. -/
def label? (operands : List Value) : Option String :=
  if mock.spec.category = .equality ∨ ∀ v ∈ operands, v.label?.isNone then none
  else some (mock.spec.symbol ++ "(" ++ String.intercalate "," (operands.map Value.inLabel) ++ ")")

/-- A result with the label of a mock, as an object of its own. -/
def result (operands : List Value) (id : Identity) (r : Value) : Value :=
  match mock.label? operands with
  | some label => .tainted id r label
  | none => r

/-- The state once it is reported and recorded that a value with a label has reached a sink. -/
def sunk (label : String) (s : RunState) : RunState :=
  { s with
    log := s.log ++ [⟨.warning, "tainted value reached sink " ++ mock.spec.symbol ++ ": " ++ label⟩]
    records := s.records.addSinkHit ⟨mock.spec.symbol, label⟩ }

/-- The state once a mock has looked at its operands. Only a function is a sink. -/
def alert (operands : List Value) (s : RunState) : RunState :=
  match mock.spec.category, mock.label? operands with
  | .function, some label => mock.sunk label s
  | _, _ => s

variable {mock}

/-! ## Labels -/

/-- A mock puts no label on its result if it is an equality, or if no operand has one. -/
theorem label?_eq_none_iff {operands : List Value} :
    mock.label? operands = none ↔
      mock.spec.category = .equality ∨ ∀ v ∈ operands, v.Untainted := by
  rw [label?, ite_eq_left_iff]
  simp only [reduceCtorEq, imp_false, not_not, Option.isNone_iff_eq_none, Value.Untainted]

/-- Operands without labels put none on the result. -/
theorem label?_of_untainted {operands : List Value} (h : ∀ v ∈ operands, v.Untainted) :
    mock.label? operands = none :=
  label?_eq_none_iff.2 (.inr h)

/-- All other mocks do if an operand has one. -/
theorem label?_of_tainted (h : mock.spec.category ≠ .equality) {operands : List Value} {v : Value}
    (hv : v ∈ operands) (htainted : ¬v.Untainted) :
    mock.label? operands = some
      (mock.spec.symbol ++ "(" ++ String.intercalate "," (operands.map Value.inLabel) ++ ")") := by
  refine if_neg fun hnot => hnot.elim h fun hall => htainted ?_
  exact Option.isNone_iff_eq_none.1 (hall v hv)

/-- The label that a mock puts on its result lists the operands. -/
theorem eq_of_label?_eq_some {operands : List Value} {label : String}
    (h : mock.label? operands = some label) :
    label =
      mock.spec.symbol ++ "(" ++ String.intercalate "," (operands.map Value.inLabel) ++ ")" := by
  rw [label?, Option.ite_none_left_eq_some] at h
  exact (Option.some.inj h.2).symm

/-- The result of a mock, without the label that it may have, is that of the native. -/
theorem raw_result {operands : List Value} {id : Identity} {r : Value}
    (h : mock.label? operands = none → r.Untainted) : (mock.result operands id r).raw = r := by
  rw [result]
  split
  · rfl
  · rename_i hlabel
    exact (h hlabel).raw_eq

/-- The label of the result of a mock is the one that the mock puts there. -/
theorem label?_result {operands : List Value} {id : Identity} {r : Value}
    (h : mock.label? operands = none → r.Untainted) :
    (mock.result operands id r).label? = mock.label? operands := by
  rw [result]
  split
  · rename_i label hlabel
    exact hlabel.symm
  · rename_i hlabel
    rw [h hlabel, hlabel]

/-! ## One mock for all categories -/

variable (evaluator : Evaluator)

/-- A mock as its native, between the alert and the label. -/
def deliver (mock : Mock) (operands : List Value) : Run Value := do
  modify (mock.alert operands)
  let r ← mock.native.apply evaluator (operands.map Value.raw)
  match mock.label? operands with
  | some label => Substrate.inMemory.wrap r label
  | none => return r

variable {evaluator}

/-- Without a label on the result, a mock is its native. -/
theorem deliver_of_label?_eq_none {operands : List Value} (h : mock.label? operands = none) :
    mock.deliver evaluator operands = mock.native.apply evaluator (operands.map Value.raw) := by
  have halert : mock.alert operands = id := by
    funext s
    rw [alert, h]
    cases mock.spec.category <;> rfl
  rw [deliver, halert, h]
  exact bind_pure (m := Run) (liftM (mock.native.apply evaluator (operands.map Value.raw)))

/-- With a label, a mock that is no sink is its native followed by the label. -/
theorem deliver_of_label?_eq_some {operands : List Value} {label : String}
    (hcategory : mock.spec.category ≠ .function) (h : mock.label? operands = some label) :
    mock.deliver evaluator operands = (do
      let r ← mock.native.apply evaluator (operands.map Value.raw)
      Substrate.inMemory.wrap r label) := by
  have halert : mock.alert operands = id := by
    funext s
    rw [alert]
    split
    · rename_i hfunction _
      exact absurd hfunction hcategory
    · rfl
  rw [deliver, halert, h]
  rfl

/-- The mock of a unary operator. -/
theorem callUnary_eq (hcategory : mock.spec.category = .unary) (v : Value) :
    mock.callUnary .inMemory evaluator v = mock.deliver evaluator [v] := by
  have hne : mock.spec.category ≠ .function ∧ mock.spec.category ≠ .equality := by simp [hcategory]
  rcases v.untainted_or_tainted with hv | ⟨id, raw, label, rfl⟩
  · rw [deliver_of_label?_eq_none (label?_of_untainted (List.forall_mem_singleton.2 hv)),
      callUnary, Substrate.inMemory_isTainted, hv, List.map_singleton, hv.raw_eq]
    rfl
  · rw [deliver_of_label?_eq_some hne.1
      (label?_of_tainted hne.2 (List.mem_singleton_self (Value.tainted id raw label)) nofun)]
    rfl

/-- An operand without its taint, and its label as a value. -/
theorem operand_eq (v : Value) :
    operand .inMemory v = pure (v.raw, v.label?.map Value.text) := by
  cases v <;> rfl

/-- What stands for an operand in a label. -/
theorem operandLabel_eq (v : Value) :
    operandLabel v.raw (v.label?.map Value.text) = .ok v.inLabel := by
  rcases v.untainted_or_tainted with hv | ⟨id, raw, label, rfl⟩
  · rw [Value.inLabel, hv, hv.raw_eq]
    rfl
  · rfl

/-- The mock of a binary operator. -/
theorem callBinary_eq (hcategory : mock.spec.category = .binary) (v w : Value) :
    mock.callBinary .inMemory evaluator v w = mock.deliver evaluator [v, w] := by
  have hne : mock.spec.category ≠ .function ∧ mock.spec.category ≠ .equality := by simp [hcategory]
  have hcall : mock.callBinary .inMemory evaluator v w = (do
      let r ← mock.native.apply evaluator [v.raw, w.raw]
      if v.label?.isNone && w.label?.isNone then return r
      else Substrate.inMemory.wrap r (Label.binary mock.spec.symbol v.inLabel w.inLabel)) := by
    simp only [callBinary, operand_eq, pure_bind, Option.isNone_map, operandLabel_eq]
    rfl
  rw [hcall]
  -- One label is enough: the other operand stands as a text in the label of the result.
  by_cases huntainted : v.Untainted ∧ w.Untainted
  · obtain ⟨hv, hw⟩ := huntainted
    have hlabel : mock.label? [v, w] = none := label?_of_untainted (by simp [hv, hw])
    rw [deliver_of_label?_eq_none hlabel, hv, hw]
    exact bind_pure (m := Run) (liftM (mock.native.apply evaluator [v.raw, w.raw]))
  · have hlabel : mock.label? [v, w] =
        some (Label.binary mock.spec.symbol v.inLabel w.inLabel) := by
      rw [Label.binary_eq_intercalate]
      by_cases hv : v.Untainted
      · exact label?_of_tainted hne.2 (by simp) fun hw => huntainted ⟨hv, hw⟩
      · exact label?_of_tainted hne.2 List.mem_cons_self hv
    have hsome : (v.label?.isNone && w.label?.isNone) = false := by
      rw [Bool.eq_false_iff, ne_eq, Bool.and_eq_true, Option.isNone_iff_eq_none,
        Option.isNone_iff_eq_none]
      exact huntainted
    rw [deliver_of_label?_eq_some hne.1 hlabel, hsome]
    rfl

/-- The mock of an equality. -/
theorem callEquality_eq (hcategory : mock.spec.category = .equality) (v w : Value) :
    mock.callEquality .inMemory evaluator v w = mock.deliver evaluator [v, w] := by
  -- Whether an operand is unwrapped depends on what it is, so both are taken apart.
  rw [deliver_of_label?_eq_none (label?_eq_none_iff.2 (.inl hcategory))]
  cases v <;> cases w <;> rfl

/-- The mock of a function. -/
theorem callFunction_eq (hcategory : mock.spec.category = .function) (v : Value) :
    mock.callFunction .inMemory evaluator v = mock.deliver evaluator [v] := by
  rcases v.untainted_or_tainted with hv | ⟨id, raw, label, rfl⟩
  · rw [deliver_of_label?_eq_none (label?_of_untainted (List.forall_mem_singleton.2 hv)),
      callFunction, Substrate.inMemory_isTainted, hv, List.map_singleton, hv.raw_eq]
    rfl
  · have hne : mock.spec.category ≠ .equality := by simp [hcategory]
    have hlabel : mock.label? [.tainted id raw label] = some (Label.unary mock.spec.symbol label) :=
      label?_of_tainted hne (List.mem_singleton_self _) nofun
    -- Of all mocks that of a function alone reports what it is given.
    have halert : mock.alert [.tainted id raw label] =
        mock.sunk (Label.unary mock.spec.symbol label) := by
      funext s
      rw [alert, hcategory, hlabel]
    rw [deliver, halert, hlabel]
    rfl

/-- A mock is its native on the raw operands, between the alert and the label. -/
theorem call_eq {operands : List Value} (h : operands.length = mock.spec.category.arity) :
    mock.call .inMemory evaluator operands = mock.deliver evaluator operands := by
  unfold call
  cases hcategory : mock.spec.category with
  | unary =>
    rw [hcategory] at h
    obtain ⟨v, rfl⟩ := List.length_eq_one_iff.1 h
    exact callUnary_eq hcategory v
  | binary =>
    rw [hcategory] at h
    obtain ⟨v, w, rfl⟩ := List.length_eq_two.1 h
    exact callBinary_eq hcategory v w
  | equality =>
    rw [hcategory] at h
    obtain ⟨v, w, rfl⟩ := List.length_eq_two.1 h
    exact callEquality_eq hcategory v w
  | function =>
    rw [hcategory] at h
    obtain ⟨v, rfl⟩ := List.length_eq_one_iff.1 h
    exact callFunction_eq hcategory v

/-- No mock takes a wrong number of operands. -/
theorem call_of_length_ne {operands : List Value} (h : operands.length ≠ mock.spec.category.arity) :
    mock.call .inMemory evaluator operands = throw .wrongType := by
  unfold call
  -- In the first four cases the number of operands is that of the category.
  split
  · rename_i hcategory
    exact absurd (by rw [hcategory]; rfl) h
  · rename_i hcategory
    exact absurd (by rw [hcategory]; rfl) h
  · rename_i hcategory
    exact absurd (by rw [hcategory]; rfl) h
  · rename_i hcategory
    exact absurd (by rw [hcategory]; rfl) h
  · rfl

/-! ## The outcome -/

/-- The outcome of a mock is that of its native on the raw operands, with the label put on. -/
theorem run_call (evaluator : Evaluator) {operands : List Value}
    (h : operands.length = mock.spec.category.arity) (s : RunState) :
    ∃ id s', (mock.call .inMemory evaluator operands).run.run s =
      ((mock.native.apply evaluator (operands.map Value.raw)).map (mock.result operands id),
        s') := by
  rw [call_eq h]
  unfold deliver result
  -- A fault ends the run after the alert; only a label that is put on needs an identity.
  cases happly : mock.native.apply evaluator (operands.map Value.raw) with
  | error fault => exact ⟨0, _, rfl⟩
  | ok r =>
    cases hlabel : mock.label? operands with
    | none => exact ⟨0, _, rfl⟩
    | some label => exact ⟨_, _, rfl⟩

/-- A mock that gives a result has its number of operands, and a result of its native. -/
theorem call_eq_ok {operands : List Value} {v : Value} {s s' : RunState}
    (h : (mock.call .inMemory evaluator operands).run.run s = (.ok v, s')) :
    operands.length = mock.spec.category.arity ∧
      ∃ id r, mock.native.apply evaluator (operands.map Value.raw) = .ok r ∧
        v = mock.result operands id r := by
  by_cases hlength : operands.length = mock.spec.category.arity
  · obtain ⟨id, s₁, hrun⟩ := run_call evaluator hlength s
    rw [hrun] at h
    rcases happly : mock.native.apply evaluator (operands.map Value.raw) with fault | r
    · rw [happly] at h
      cases h
    · rw [happly] at h
      cases h
      exact ⟨hlength, id, r, rfl, rfl⟩
  · rw [call_of_length_ne hlength] at h
    cases h

end Mock

end TaintWeave
