import TaintWeave.Proofs.Taint.Realization
import TaintWeave.Proofs.Taint.Mock
import TaintWeave.Proofs.Taint.Namespace
import TaintWeave.Proofs.Taint.Term

/-!
# Exact taint

The value of a term is tainted if and only if a source is exposed in it, and its label is the text
of the derivation of the term, whose sources are those that are exposed. So taint is neither lost
nor made up, and a label tells all there is to tell.

* `Term.Exact`: what the value of a term is to be.
* `Term.exact_call`: calls keep it.
* `Term.label_exact`: the value of a term is so, if there is one.
-/

namespace TaintWeave

/-- The parts of derivations are those of each. -/
theorem Derivation.walkAll_eq_flatMap (ds : List Derivation) : walkAll ds = ds.flatMap walk := by
  induction ds with
  | nil => rw [walkAll, List.flatMap_nil]
  | cons d rest ih => rw [walkAll, ih, List.flatMap_cons]

/-- The sources of an operation are those of its operands. -/
theorem Derivation.sources_operation (symbol : String) (ds : List Derivation) :
    (operation symbol ds).sources = ds.flatMap sources := by
  rw [sources, walk, walkAll_eq_flatMap, List.filterMap_cons_none rfl, List.filterMap_flatMap]
  rfl

/-- No equality of a namespace gives one of its operands back. -/
def Namespace.DecidesEqualities (ns : Namespace) : Prop :=
  ∀ name mock, ns.get name = .ok mock → mock.spec.category = .equality →
    mock.native.isChoice = false

/-- A name hides sources if the mock of that name is an equality. -/
theorem Namespace.hides_of_get (ns : Namespace) {name : String} {mock : Mock}
    (h : ns.get name = .ok mock) : ns.hides name = (mock.spec.category == .equality) := by
  rw [get] at h
  split at h
  · rename_i found hfound
    cases h
    rw [hides, hfound, Option.any_some]
  · cases h

namespace Term

variable {α : Type} (ns : Namespace) (evaluator : Evaluator) (values : α → Value)

/-- A value is exactly what a term is to come to. -/
structure Exact (t : Term α) (v : Value) : Prop where
  raw : t.plain ns evaluator values = .ok v.raw
  flat : (∀ a, (values a).Flat) → v.Flat
  untainted : v.Untainted ↔ t.exposed ns values = []
  derived : ∃ d, t.derivation ns evaluator values = .ok d ∧ d.toText = v.inLabel ∧
    d.sources = t.exposed ns values

/-- Values are exactly what terms are to come to. -/
structure ExactAll (ts : List (Term α)) (vs : List Value) : Prop where
  raw : plainAll ns evaluator values ts = .ok (vs.map Value.raw)
  flat : (∀ a, (values a).Flat) → ∀ v ∈ vs, v.Flat
  untainted : (∀ v ∈ vs, v.Untainted) ↔ exposedAll ns values ts = []
  derived : ∃ ds, derivations ns evaluator values ts = .ok ds ∧
    Derivation.toTexts ds = vs.map Value.inLabel ∧
    ds.flatMap Derivation.sources = exposedAll ns values ts

variable {ns evaluator values}

/-- A leaf comes to the value that it stands for. -/
theorem exact_leaf (a : α) : Exact ns evaluator values (.leaf a) (values a) := by
  refine ⟨by rw [plain], fun h => h a, ?_, ?_⟩
  · rw [exposed, Option.toList_eq_nil_iff]
    exact Iff.rfl
  · rw [derivation, exposed, Value.inLabel]
    cases (values a).label? with
    | none => exact ⟨_, rfl, rfl, rfl⟩
    | some name => exact ⟨_, rfl, rfl, rfl⟩

/-- No terms come to no values. -/
theorem exactAll_nil : ExactAll ns evaluator values [] [] :=
  ⟨rfl, nofun, iff_of_true nofun rfl, [], rfl, rfl, rfl⟩

/-- Terms come to their values one after the other. -/
theorem Exact.cons {t : Term α} {ts : List (Term α)} {v : Value} {vs : List Value}
    (h : Exact ns evaluator values t v) (hrest : ExactAll ns evaluator values ts vs) :
    ExactAll ns evaluator values (t :: ts) (v :: vs) := by
  obtain ⟨d, hd, htext, hsources⟩ := h.derived
  obtain ⟨ds, hds, htexts, hallSources⟩ := hrest.derived
  refine ⟨?_, fun hflat => List.forall_mem_cons.2 ⟨h.flat hflat, hrest.flat hflat⟩, ?_,
    d :: ds, ?_, ?_, ?_⟩
  · rw [plainAll, h.raw, hrest.raw]
    rfl
  · rw [List.forall_mem_cons, h.untainted, hrest.untainted, exposedAll, List.append_eq_nil_iff]
  · rw [derivations, hd, hds]
    rfl
  · rw [Derivation.toTexts, htext, htexts, List.map_cons]
  · rw [List.flatMap_cons, hsources, hallSources, exposedAll]

/-- A call comes to the result of its mock on the values of the operands. -/
theorem exact_call {name : String} {operands : List (Term α)} {mock : Mock} {vs : List Value}
    {id : Identity} {r : Value} (hevaluator : evaluator.Untainted)
    (hvalues : (∀ a, (values a).Flat) ∨ ns.DecidesEqualities)
    (hoperands : ExactAll ns evaluator values operands vs) (hget : ns.get name = .ok mock)
    (hlength : vs.length = mock.spec.category.arity)
    (happly : mock.native.apply evaluator (vs.map Value.raw) = .ok r) :
    Exact ns evaluator values (.call name operands) (mock.result vs id r) := by
  have hflat : (∀ a, (values a).Flat) → r.Untainted := fun h =>
    Native.untainted hevaluator (List.forall_mem_map.2 (hoperands.flat h)) happly
  -- Where a mock puts no label on its result, the native must not have left one there.
  have hr : mock.label? vs = none → r.Untainted := by
    intro hlabel
    rcases Mock.label?_eq_none_iff.1 hlabel with hequality | huntainted
    · -- An equality puts none there whatever its operands are.
      rcases hvalues with h | h
      · exact hflat h
      · have htwo : (vs.map Value.raw).length = 2 := by
          rw [List.length_map, hlength, hequality]
          rfl
        exact Native.untainted_of_not_isChoice (h name mock hget hequality) htwo happly
    · refine Native.untainted hevaluator (List.forall_mem_map.2 fun v hv => ?_) happly
      exact (huntainted v hv).flat
  have hplain : (Term.call name operands).plain ns evaluator values =
      .ok (mock.result vs id r).raw := by
    rw [plain, hoperands.raw, hget, Mock.raw_result hr]
    exact happly
  have hlabel : mock.label? vs = none ↔ (Term.call name operands).exposed ns values = [] := by
    rw [Mock.label?_eq_none_iff, exposed, ns.hides_of_get hget, hoperands.untainted]
    by_cases hequality : mock.spec.category = .equality
    · simp [hequality]
    · simp [hequality]
  refine ⟨hplain, fun h => ?_, ?_, ?_⟩
  · rw [Value.Flat, Mock.raw_result hr]
    exact hflat h
  · rw [Value.Untainted, Mock.label?_result hr, hlabel]
  · rw [derivation]
    -- A call without exposed sources is a text, and any other an operation.
    by_cases hexposed : (Term.call name operands).exposed ns values = []
    · have huntainted : (mock.result vs id r).Untainted := by
        rw [Value.Untainted, Mock.label?_result hr, hlabel]
        exact hexposed
      rw [if_pos hexposed, hplain, huntainted.raw_eq, hexposed]
      exact ⟨_, rfl, huntainted.inLabel_eq.symm, rfl⟩
    · obtain ⟨ds, hds, htexts, hsources⟩ := hoperands.derived
      rw [if_neg hexposed, hget, hds]
      refine ⟨_, rfl, ?_, ?_⟩
      · rcases hsome : mock.label? vs with _ | label
        · exact absurd (hlabel.1 hsome) hexposed
        · have hresult : (mock.result vs id r).label? = some label := by
            rw [Mock.label?_result hr, hsome]
          rw [Value.inLabel_of_label? hresult, Derivation.toText, htexts,
            Mock.eq_of_label?_eq_some hsome]
      · have hnot : ns.hides name = false := by
          rw [exposed] at hexposed
          exact Bool.eq_false_iff.2 fun h => hexposed (if_pos h)
        rw [Derivation.sources_operation, hsources, exposed, hnot]
        rfl

mutual

/-- The value of a term is exact. -/
theorem exact_of_evaluate (hevaluator : evaluator.Untainted)
    (hvalues : (∀ a, (values a).Flat) ∨ ns.DecidesEqualities) :
    ∀ (t : Term α) {v : Value} {s s' : RunState},
      (t.evaluate ns evaluator values).run.run s = (.ok v, s') → Exact ns evaluator values t v
  | .leaf a, v, s, s', h => by
    cases h
    exact exact_leaf a
  | .call name operands, v, s, s', h => by
    rw [evaluate] at h
    obtain ⟨vs, s₁, hvs, h⟩ := Run.bind_eq_ok h
    obtain ⟨mock, s₂, hmock, h⟩ := Run.bind_eq_ok h
    obtain ⟨hget, _⟩ := Run.lift_eq_ok hmock
    obtain ⟨hlength, id, r, happly, rfl⟩ := Mock.call_eq_ok h
    exact exact_call hevaluator hvalues (exactAll_of_evaluateAll hevaluator hvalues operands hvs)
      hget hlength happly

/-- The values of terms are exact. -/
theorem exactAll_of_evaluateAll (hevaluator : evaluator.Untainted)
    (hvalues : (∀ a, (values a).Flat) ∨ ns.DecidesEqualities) :
    ∀ (ts : List (Term α)) {vs : List Value} {s s' : RunState},
      (evaluateAll ns evaluator values ts).run.run s = (.ok vs, s') →
        ExactAll ns evaluator values ts vs
  | [], vs, s, s', h => by
    cases h
    exact exactAll_nil
  | t :: ts, vs, s, s', h => by
    rw [evaluateAll] at h
    obtain ⟨v, s₁, hv, h⟩ := Run.bind_eq_ok h
    obtain ⟨rest, s₂, hrest, h⟩ := Run.bind_eq_ok h
    cases h
    exact (exact_of_evaluate hevaluator hvalues t hv).cons
      (exactAll_of_evaluateAll hevaluator hvalues ts hrest)

end

/-- Taint and provenance are exact. If a term has a value, it is tainted if and only if a source is
    exposed in the term, and then its label is the text of the derivation of the term. The sources
    of the derivation are those that are exposed. -/
theorem label_exact {t : Term α} {v : Value} {s s' : RunState} (hevaluator : evaluator.Untainted)
    (hvalues : (∀ a, (values a).Flat) ∨ ns.DecidesEqualities)
    (h : (t.evaluate ns evaluator values).run.run s = (.ok v, s')) :
    t.plain ns evaluator values = .ok v.raw ∧ (¬v.Untainted ↔ t.exposed ns values ≠ []) ∧
      ∃ d, t.derivation ns evaluator values = .ok d ∧ d.sources = t.exposed ns values ∧
        (¬v.Untainted → v.label? = some d.toText) := by
  have hexact := exact_of_evaluate hevaluator hvalues t h
  obtain ⟨d, hd, htext, hsources⟩ := hexact.derived
  refine ⟨hexact.raw, not_congr hexact.untainted, d, hd, hsources, fun htainted => ?_⟩
  obtain ⟨label, hlabel⟩ := Option.ne_none_iff_exists'.1 htainted
  rw [htext, Value.inLabel_of_label? hlabel, hlabel]

/-- The term `x + (x == "b")` for a tainted `x`: the source below the equality is hidden. -/
theorem label_exact_hidden_source :
    ∃ catalog ns v s s' d, Catalog.ofTable Table.standard = .ok catalog ∧
      Namespace.build catalog = .ok ns ∧
      (evaluate ns (fun _ => .ok .null)
        (fun b => bif b then .tainted 0 (.text "a") "x" else .text "b")
        (.call "__plus__"
          [.leaf true, .call "__double_equal__" [.leaf true, .leaf false]])).run.run s =
        (.ok v, s') ∧
      ¬v.Untainted ∧ v.label? = some (Derivation.toText d) ∧ d.sources = ["x"] ∧
      d = .operation "+" [.source "x", .value "false"] := by
  obtain ⟨catalog, hcatalog⟩ := Catalog.exists_ofTable_standard
  have hbuild := Namespace.build_eq (Table.valid_of_ofEntries Table.ofEntries_standard)
    (Catalog.rules_of_ofSpecs hcatalog)
  have hevaluator : Evaluator.Untainted fun _ => .ok .null := fun _ _ h => by
    cases h
    rfl
  have hvalues : ∀ b : Bool, (bif b then .tainted 0 (.text "a") "x" else .text "b" : Value).Flat :=
    Bool.forall_bool.2 ⟨rfl, rfl⟩
  have hrun : (evaluate (Namespace.ofTable Table.standard catalog) (fun _ => .ok .null)
      (fun b => bif b then .tainted 0 (.text "a") "x" else .text "b")
      (.call "__plus__" [.leaf true, .call "__double_equal__" [.leaf true, .leaf false]])).run.run
        { records := { limit := none } } =
      (.ok (.tainted 0 (.text "afalse") "+(x,value(false))"),
        { fresh := 1, records := { limit := none } }) := rfl
  obtain ⟨_, htainted, d, hd, hsources, hlabel⟩ := label_exact hevaluator (.inl hvalues) hrun
  cases hd
  exact ⟨catalog, _, _, _, _, _, hcatalog, hbuild, hrun, nofun, hlabel nofun, hsources, rfl⟩

end Term

end TaintWeave
