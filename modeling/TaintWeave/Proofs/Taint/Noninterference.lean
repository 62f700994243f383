import TaintWeave.Proofs.Taint.Exactness
import TaintWeave.Proofs.Taint.LowEquivalence

/-!
# Noninterference

What is tainted does not show in what is not. Evaluate a term twice, with leaves that are low
equivalent: the two values are low equivalent again, so one is tainted if the other is, and if they
are primitives they are the same. Only equalities have to be left out, for their results depend on
tainted values and carry no label.

* `Mock.lowEquivalent_of_call`: a mock on low equivalent operands.
* `Term.lowEquivalent_of_evaluate`: a term without equalities, for all namespaces in which no other
  mock compares its operands.
* `Term.evaluate_low_equivalent`: the same of the standard mocks.
-/

namespace TaintWeave

open Value

/-! ## Mocks -/

/-- Low equivalent operands are all without labels, or neither list is. -/
theorem Value.AllLowEquivalent.untainted_iff {vs ws : List Value} (h : AllLowEquivalent vs ws) :
    (∀ v ∈ vs, v.Untainted) ↔ ∀ w ∈ ws, w.Untainted := by
  induction vs generalizing ws with
  | nil =>
    cases h
    exact Iff.rfl
  | cons v vs ih =>
    cases h with
    | cons h hrest =>
      rw [List.forall_mem_cons, List.forall_mem_cons, h.untainted_iff, ih hrest]

namespace Mock

variable {mock : Mock} {evaluator : Evaluator} {vs ws : List Value} {v w : Value}

/-- A mock that is no equality labels its results on low equivalent operands alike. -/
theorem label?_eq_none_iff_of_lowEquivalent (h : AllLowEquivalent vs ws) :
    mock.label? vs = none ↔ mock.label? ws = none := by
  rw [label?_eq_none_iff, label?_eq_none_iff, h.untainted_iff]

/-- On low equivalent operands, a mock that is no equality comes to low equivalent results. -/
theorem lowEquivalent_of_call (hcategory : mock.spec.category ≠ .equality)
    (hnative : mock.native.isComparison = false) (h : AllLowEquivalent vs ws)
    {s₁ s₂ s₁' s₂' : RunState}
    (hv : (mock.call .inMemory evaluator vs).run.run s₁ = (.ok v, s₁'))
    (hw : (mock.call .inMemory evaluator ws).run.run s₂ = (.ok w, s₂')) :
    LowEquivalent v w := by
  obtain ⟨-, i, r, hr, rfl⟩ := call_eq_ok hv
  obtain ⟨-, j, r', hr', rfl⟩ := call_eq_ok hw
  have hlabels : mock.label? vs = none ↔ mock.label? ws = none :=
    label?_eq_none_iff_of_lowEquivalent h
  rw [result, result]
  cases hlabel : mock.label? vs with
  | some label =>
    -- Both results are tainted, whatever the natives have come to.
    rw [hlabel] at hlabels
    obtain ⟨label', hlabel'⟩ :=
      Option.ne_none_iff_exists'.1 (mt hlabels.2 (Option.some_ne_none label))
    rw [hlabel']
    exact .tainted
  | none =>
    rw [hlabels.1 hlabel]
    -- No operand is tainted, so the natives have worked on the operands themselves.
    have huntainted : ∀ v ∈ vs, v.Untainted :=
      (label?_eq_none_iff.1 hlabel).resolve_left hcategory
    rw [map_raw_of_untainted huntainted] at hr
    rw [map_raw_of_untainted (h.untainted_iff.1 huntainted)] at hr'
    have hagrees := Native.agrees_apply evaluator hnative h
    rw [hr, hr'] at hagrees
    cases hagrees with
    | value hresults => exact hresults

end Mock

/-! ## Terms -/

/-- Mocks other than equalities do not compare their operands. -/
def Namespace.OnlyEqualitiesCompare (ns : Namespace) : Prop :=
  ∀ name mock, ns.get name = .ok mock → mock.spec.category ≠ .equality →
    mock.native.isComparison = false

/-- The standard mocks other than equalities do not compare their operands. -/
theorem Namespace.onlyEqualitiesCompare_standard {catalog : Catalog} {ns : Namespace}
    (hcatalog : Catalog.ofTable .standard = .ok catalog) (hns : build catalog = .ok ns) :
    ns.OnlyEqualitiesCompare := by
  have hall : ∀ m ∈ Table.standard.mocks, m.2.spec.category ≠ .equality →
      m.2.native.isComparison = false := by decide +kernel
  exact fun name mock hget => hall (name, mock) (mem_mocks_standard hcatalog hns hget)

namespace Term

variable {α : Type}

mutual

/-- No equality is called in a term. -/
def WithoutEqualities (ns : Namespace) : Term α → Prop
  | leaf _ => True
  | call name operands => ns.hides name = false ∧ AllWithoutEqualities ns operands

/-- No equality is called in any of several terms. -/
def AllWithoutEqualities (ns : Namespace) : List (Term α) → Prop
  | [] => True
  | t :: ts => WithoutEqualities ns t ∧ AllWithoutEqualities ns ts

end

variable {ns : Namespace} {evaluator : Evaluator} {values values' : α → Value}

mutual

/-- The values of a term without equalities are low equivalent if its leaves are. -/
theorem lowEquivalent_of_evaluate (hns : ns.OnlyEqualitiesCompare)
    (hleaves : ∀ a, LowEquivalent (values a) (values' a)) :
    ∀ (t : Term α) {v w : Value} {s₁ s₂ s₁' s₂' : RunState}, t.WithoutEqualities ns →
      (t.evaluate ns evaluator values).run.run s₁ = (.ok v, s₁') →
      (t.evaluate ns evaluator values').run.run s₂ = (.ok w, s₂') → LowEquivalent v w
  | .leaf a, v, w, _, _, _, _, _, hv, hw => by
    cases hv
    cases hw
    exact hleaves a
  | .call name operands, v, w, _, _, _, _, ht, hv, hw => by
    rw [WithoutEqualities] at ht
    rw [evaluate] at hv hw
    obtain ⟨vs, _, hvs, hv⟩ := Run.bind_eq_ok hv
    obtain ⟨ws, _, hws, hw⟩ := Run.bind_eq_ok hw
    obtain ⟨mock, _, hmock, hcall⟩ := Run.bind_eq_ok hv
    obtain ⟨mock', _, hmock', hcall'⟩ := Run.bind_eq_ok hw
    -- The mock is that of the name in both runs.
    obtain ⟨hget, rfl⟩ := Run.lift_eq_ok hmock
    obtain ⟨hget', rfl⟩ := Run.lift_eq_ok hmock'
    rw [hget, Except.ok.injEq] at hget'
    subst hget'
    have hcategory : mock.spec.category ≠ .equality := by
      have hhides := ns.hides_of_get hget
      rw [ht.1] at hhides
      exact beq_eq_false_iff_ne.1 hhides.symm
    exact Mock.lowEquivalent_of_call hcategory (hns name mock hget hcategory)
      (allLowEquivalent_of_evaluateAll hns hleaves operands ht.2 hvs hws) hcall hcall'

/-- The values of terms without equalities are low equivalent if their leaves are. -/
theorem allLowEquivalent_of_evaluateAll (hns : ns.OnlyEqualitiesCompare)
    (hleaves : ∀ a, LowEquivalent (values a) (values' a)) :
    ∀ (ts : List (Term α)) {vs ws : List Value} {s₁ s₂ s₁' s₂' : RunState},
      AllWithoutEqualities ns ts →
      (evaluateAll ns evaluator values ts).run.run s₁ = (.ok vs, s₁') →
      (evaluateAll ns evaluator values' ts).run.run s₂ = (.ok ws, s₂') → AllLowEquivalent vs ws
  | [], vs, ws, _, _, _, _, _, hvs, hws => by
    cases hvs
    cases hws
    exact .nil
  | t :: ts, vs, ws, _, _, _, _, hts, hvs, hws => by
    rw [AllWithoutEqualities] at hts
    rw [evaluateAll] at hvs hws
    obtain ⟨v, _, hv, hvs⟩ := Run.bind_eq_ok hvs
    obtain ⟨w, _, hw, hws⟩ := Run.bind_eq_ok hws
    obtain ⟨vs', _, hvrest, hvs⟩ := Run.bind_eq_ok hvs
    obtain ⟨ws', _, hwrest, hws⟩ := Run.bind_eq_ok hws
    cases hvs
    cases hws
    exact .cons (lowEquivalent_of_evaluate hns hleaves t hts.1 hv hw)
      (allLowEquivalent_of_evaluateAll hns hleaves ts hts.2 hvrest hwrest)

end

/-- Untainted results reveal nothing about tainted data. Two evaluations of a term with the standard
    mocks, but for equalities, on low equivalent leaves come to low equivalent values, if they come
    to values at all. So the one is tainted if the other is, and what they are as primitives is the
    same. -/
theorem evaluate_low_equivalent {catalog : Catalog} {t : Term α} {v w : Value}
    {s₁ s₂ s₁' s₂' : RunState} (hcatalog : Catalog.ofTable .standard = .ok catalog)
    (hns : Namespace.build catalog = .ok ns) (ht : t.WithoutEqualities ns)
    (hleaves : ∀ a, LowEquivalent (values a) (values' a))
    (hv : (t.evaluate ns evaluator values).run.run s₁ = (.ok v, s₁'))
    (hw : (t.evaluate ns evaluator values').run.run s₂ = (.ok w, s₂')) :
    LowEquivalent v w ∧ (v.Untainted ↔ w.Untainted) ∧ (v.kind ≠ .object → v = w) := by
  have hlow : LowEquivalent v w := lowEquivalent_of_evaluate
    (Namespace.onlyEqualitiesCompare_standard hcatalog hns) hleaves t ht hv hw
  exact ⟨hlow, hlow.untainted_iff, hlow.eq_of_kind⟩

/-- The term `xs + "b"` for two arrays that hold different tainted values. -/
theorem evaluate_low_equivalent_nested :
    ∃ catalog ns v w s₁' s₂', Catalog.ofTable .standard = .ok catalog ∧
      Namespace.build catalog = .ok ns ∧
      (Term.evaluate ns (fun _ => .ok .null)
        (fun b => bif b then .sequence 1 .list [.tainted 0 (.text "a") "x"] else .text "b")
        (.call "__plus__" [.leaf true, .leaf false])).run.run { records := { limit := none } } =
        (.ok v, s₁') ∧
      (Term.evaluate ns (fun _ => .ok .null)
        (fun b => bif b then .sequence 4 .list [.tainted 2 (.int 7) "y"] else .text "b")
        (.call "__plus__" [.leaf true, .leaf false])).run.run { records := { limit := none } } =
        (.ok w, s₂') ∧
      LowEquivalent v w ∧ v = .text "[object Object]b" := by
  obtain ⟨catalog, hcatalog⟩ := Catalog.exists_ofTable_standard
  have hbuild := Namespace.build_eq (Table.valid_of_ofEntries Table.ofEntries_standard)
    (Catalog.rules_of_ofSpecs hcatalog)
  have hleaves : ∀ b : Bool, LowEquivalent
      (bif b then .sequence 1 .list [.tainted 0 (.text "a") "x"] else .text "b")
      (bif b then .sequence 4 .list [.tainted 2 (.int 7) "y"] else .text "b") :=
    Bool.forall_bool.2 ⟨.refl _, .sequence (.cons .tainted .nil)⟩
  have hv : (Term.evaluate (Namespace.ofTable .standard catalog) (fun _ => .ok .null)
      (fun b => bif b then .sequence 1 .list [.tainted 0 (.text "a") "x"] else .text "b")
      (.call "__plus__" [.leaf true, .leaf false])).run.run { records := { limit := none } } =
      (.ok (.text "[object Object]b"), { records := { limit := none } }) := rfl
  have hw : (Term.evaluate (Namespace.ofTable .standard catalog) (fun _ => .ok .null)
      (fun b => bif b then .sequence 4 .list [.tainted 2 (.int 7) "y"] else .text "b")
      (.call "__plus__" [.leaf true, .leaf false])).run.run { records := { limit := none } } =
      (.ok (.text "[object Object]b"), { records := { limit := none } }) := rfl
  have ht : (Term.call "__plus__" [.leaf true, .leaf false]).WithoutEqualities
      (Namespace.ofTable .standard catalog) := by
    simp only [WithoutEqualities, AllWithoutEqualities, and_true]
    rfl
  have hlow := evaluate_low_equivalent hcatalog hbuild ht hleaves hv hw
  exact ⟨catalog, _, _, _, _, _, hcatalog, hbuild, hv, hw, hlow.1, rfl⟩

end Term

end TaintWeave
