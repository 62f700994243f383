import TaintWeave.Proofs.Evaluation.Interpretation
import TaintWeave.Proofs.Taint.Realization
import TaintWeave.Proofs.Instrumentation.Image
import TaintWeave.Proofs.Taint.Mock
import TaintWeave.Proofs.Taint.Namespace

/-!
# Simulation

Instrumentation keeps the meaning of a tree. The instrumented tree is evaluated with mocks, on
values that may be tainted; the tree before instrumentation with natives, on the raw values. The
first evaluation comes to a value that unwraps to that of the second, or to the same fault. What
carries the induction is that a mock never wraps a value twice.

* `Mock.realizes_call`: a mock realizes its native.
* `Catalog.realizes_evaluate`: an instrumented tree realizes the tree.
* `Catalog.evaluate_instrument`: the same of the pass, for the catalog of a table that is built.
-/

namespace TaintWeave

/-- A value has another for its raw value, and that one carries no label. -/
def Value.UnwrapsTo (v r : Value) : Prop := v.raw = r ∧ r.Untainted

variable {evaluator : Evaluator}

/-- A mock realizes its native, on operands with at most one label to take off. -/
theorem Mock.realizes_call {mock : Mock} {operands : List Value} (hevaluator : evaluator.Untainted)
    (hoperands : ∀ v ∈ operands, v.Flat) (hlength : operands.length = mock.spec.category.arity) :
    Run.Realizes Value.UnwrapsTo (mock.call .inMemory evaluator operands)
      (mock.native.apply evaluator (operands.map Value.raw)) := by
  intro s
  obtain ⟨id, s', hrun⟩ := run_call evaluator hlength s
  refine ⟨_, s', hrun, ?_⟩
  cases happly : mock.native.apply evaluator (operands.map Value.raw) with
  | error fault => exact .fault fault
  | ok r =>
    have hr : r.Untainted := Native.untainted hevaluator (List.forall_mem_map.2 hoperands) happly
    exact .value ⟨raw_result fun _ => hr, hr⟩

/-! ## Trees that are read -/

/-- A scalar carries no label. -/
theorem Json.untainted_of_scalar? {j : Json} {v : Value} (h : j.scalar? = some v) :
    v.Untainted := by
  cases j with
  | null | boolean _ | number _ | text _ =>
    cases h
    rfl
  | array _ | object _ => cases h

section Evaluation

variable {m : Type → Type} [Monad m] [LawfulMonad m] [MonadExceptOf Fault m]
  (interpretation : Interpretation m)

/-- A function called with one operand is read on its value. -/
theorem Node.evaluate_call_one (name : String) (calleeExtra extra : Members Json) (a : Node) :
    (Node.call (.identifier (.text name) calleeExtra) (.list [.node a]) extra).evaluate
        interpretation =
      (do
        let v ← a.evaluate interpretation
        interpretation.call name [v]) := by
  simp only [Slot.text, Node.evaluate, Slot.evaluateAll, pure_bind, bind_assoc]

/-- A function called with two operands is read on their values. -/
theorem Node.evaluate_call_two (name : String) (calleeExtra extra : Members Json) (a b : Node) :
    (Node.call (.identifier (.text name) calleeExtra) (.list [.node a, .node b]) extra).evaluate
        interpretation =
      (do
        let v ← a.evaluate interpretation
        let w ← b.evaluate interpretation
        interpretation.call name [v, w]) := by
  simp only [Slot.text, Node.evaluate, Slot.evaluateAll, pure_bind, bind_assoc]

end Evaluation

/-! ## Nodes that are replaced -/

/-- What stands as the operator of a node that a rule accepts is the symbol of the rule. -/
theorem Rule.operator_eq {rule : Rule} {n : Node} {operator : Slot} (h : rule.accepts n = true)
    (hoperator : n.operator? = some operator) : operator = .text rule.symbol := by
  rcases Node.symbol?_eq_some (accepts_iff.1 h).2 with hsymbol | hname
  · exact Option.some.inj (hoperator.symm.trans hsymbol)
  · -- A call has no operator.
    cases n with
    | call _ _ _ => cases hoperator
    | identifier _ _ | literal _ _ _ | unary _ _ _ _ _ | binary _ _ _ _ _ | other _ _ _ =>
      cases hname

/-- The rule of a function accepts the calls of the function. -/
theorem Rule.accepts_call {rule : Rule} (h : rule.category = .function)
    {calleeExtra extra : Members Json} {arguments : Slot} :
    rule.accepts (.call (.identifier (.text rule.symbol) calleeExtra) arguments extra) = true := by
  refine accepts_iff.2 ⟨?_, rfl⟩
  rw [h]
  exact List.mem_singleton_self _

/-- A category has as many operands as the nodes that its operators stand in. -/
theorem Category.arity_eq {category : Category} {t : NodeType} (h : t ∈ category.nodeTypes) :
    category.arity = if t = .binary ∨ t = .logical then 2 else 1 := by
  revert h
  cases category <;> cases t <;> decide

namespace Catalog

variable {catalog : Catalog} {table : Table} {env : String → Value}

/-- A call of the mock of an operator realizes its native. -/
theorem realizes_applyNative (htable : table.Valid)
    (hrules : catalog.rules = table.specs.map Rule.mk) (hevaluator : evaluator.Untainted)
    {rule : Rule} (hrule : rule ∈ catalog.rules) {operands : List Value}
    (hoperands : ∀ v ∈ operands, v.Flat) (hlength : operands.length = rule.category.arity) :
    Run.Realizes Value.UnwrapsTo
      (((Namespace.ofTable table catalog).interpretation evaluator env).call rule.name operands)
      (table.applyNative evaluator rule.symbol (operands.map Value.raw)) := by
  rw [hrules] at hrule
  obtain ⟨spec, hspec, rfl⟩ := List.mem_map.1 hrule
  obtain ⟨native, hnative⟩ := htable.natives spec hspec
  have happly : table.applyNative evaluator spec.symbol (operands.map Value.raw) =
      native.apply evaluator (operands.map Value.raw) := by
    rw [Table.applyNative, Table.native?, htable.find?_symbol hspec, Option.bind_some, hnative]
  have hcall : ((Namespace.ofTable table catalog).interpretation evaluator env).call
      spec.replacement operands = (Mock.mk spec native).call .inMemory evaluator operands := by
    have hget : (Namespace.ofTable table catalog).get spec.replacement = .ok ⟨spec, native⟩ :=
      Namespace.get_replacement htable hspec hnative
    change (liftM (Namespace.get _ _) >>= fun mock => Mock.call _ _ mock operands) = _
    rw [hget]
    rfl
  rw [Rule.name, Rule.symbol, happly, hcall]
  exact Mock.realizes_call hevaluator hoperands hlength

/-- A call of the mock of an operator with one operand realizes the native, if the operand is
    realized. -/
theorem realizes_call_one (htable : table.Valid) (hrules : catalog.rules = table.specs.map Rule.mk)
    (hevaluator : evaluator.Untainted) {rule : Rule} (hrule : rule ∈ catalog.rules)
    (harity : rule.category.arity = 1) {x : Run Value} {y : Except Fault Value}
    (hx : Run.Realizes Value.UnwrapsTo x y) :
    Run.Realizes Value.UnwrapsTo
      (do
        let v ← x
        ((Namespace.ofTable table catalog).interpretation evaluator env).call rule.name [v])
      (do
        let v ← y
        table.applyNative evaluator rule.symbol [v]) := by
  refine hx.bind ?_
  rintro v _ ⟨rfl, hv⟩
  have hoperands : ∀ u ∈ [v], u.Flat := List.forall_mem_singleton.2 hv
  exact realizes_applyNative htable hrules hevaluator hrule hoperands harity.symm

/-- An instrumented tree realizes the tree. -/
theorem realizes_evaluate (htable : table.Valid) (hrules : catalog.rules = table.specs.map Rule.mk)
    (hc : catalog.Coherent) (hevaluator : evaluator.Untainted) (henv : ∀ name, (env name).Flat)
    {t : Node} (ht : catalog.Expression t) :
    Run.Realizes Value.UnwrapsTo
      ((t.image catalog.replace).evaluate
        ((Namespace.ofTable table catalog).interpretation evaluator env))
      (t.evaluate (table.interpretation evaluator env)) := by
  -- A node with a rule becomes a call of its mock, on operands that realize those of the node.
  induction ht with
  | identifier name extra => exact Run.realizes_pure ⟨rfl, henv name⟩
  | @literal value raw extra scalar =>
    obtain ⟨v, hv⟩ := Option.isSome_iff_exists.1 scalar
    have huntainted : v.Untainted := Json.untainted_of_scalar? hv
    have himage : (Node.literal value raw extra).image catalog.replace = .literal value raw extra :=
      rfl
    rw [himage, Node.evaluate, Node.evaluate, hv]
    exact Run.realizes_pure ⟨huntainted.raw_eq, huntainted⟩
  | @unary kind operator argument leading extra rule mem accepts operand ih =>
    have harity : rule.category.arity = 1 := by
      rw [Category.arity_eq (Rule.accepts_iff.1 accepts).1]
      cases kind <;> rfl
    obtain rfl := Rule.operator_eq accepts rfl
    rw [image_of_accepts hc mem accepts]
    have htarget := Node.evaluate_call_one
      ((Namespace.ofTable table catalog).interpretation evaluator env) rule.name [] extra
      (argument.image catalog.replace)
    exact htarget ▸ realizes_call_one htable hrules hevaluator mem harity ih
  | @binary kind operator left right extra rule mem accepts first second ih₁ ih₂ =>
    have harity : rule.category.arity = 2 := by
      rw [Category.arity_eq (Rule.accepts_iff.1 accepts).1]
      cases kind <;> rfl
    obtain rfl := Rule.operator_eq accepts rfl
    rw [image_of_accepts hc mem accepts]
    have htarget := Node.evaluate_call_two
      ((Namespace.ofTable table catalog).interpretation evaluator env) rule.name [] extra
      (left.image catalog.replace) (right.image catalog.replace)
    refine htarget ▸ ih₁.bind ?_
    rintro v _ ⟨rfl, hv⟩
    refine ih₂.bind ?_
    rintro w _ ⟨rfl, hw⟩
    have hoperands : ∀ u ∈ [v, w], u.Flat :=
      List.forall_mem_cons.2 ⟨hv, List.forall_mem_singleton.2 hw⟩
    exact realizes_applyNative htable hrules hevaluator mem hoperands harity.symm
  | @call calleeExtra argument extra rule mem category operand ih =>
    have harity : rule.category.arity = 1 := by rw [category]; rfl
    rw [image_of_accepts hc mem (Rule.accepts_call category)]
    have htarget := Node.evaluate_call_one
      ((Namespace.ofTable table catalog).interpretation evaluator env) rule.name calleeExtra extra
      (argument.image catalog.replace)
    have hsource := Node.evaluate_call_one (table.interpretation evaluator env) rule.symbol
      calleeExtra extra argument
    rw [hsource]
    exact htarget ▸ realizes_call_one htable hrules hevaluator mem harity ih

/-- The nodes of an expression can be looked up. -/
theorem Expression.exists_find {t : Node} (ht : catalog.Expression t) (hc : catalog.Coherent) :
    ∀ n ∈ t.preorder, ∃ found, catalog.find n = .ok found := by
  -- A node without a symbol has no rule, and one that is accepted has the rule that accepts it.
  have hnone : ∀ {n : Node}, n.symbol? = none → ∃ found, catalog.find n = .ok found :=
    fun h => ⟨none, find_of_symbol?_eq_none h⟩
  have hsome : ∀ {n : Node} {rule : Rule}, rule ∈ catalog.rules → rule.accepts n = true →
      ∃ found, catalog.find n = .ok found :=
    fun hrule h => ⟨_, (find_eq_some_iff hc).2 ⟨hrule, h⟩⟩
  induction ht with
  | identifier name extra => exact Node.forall_mem_preorder.2 ⟨hnone rfl, nofun⟩
  | literal raw extra scalar => exact Node.forall_mem_preorder.2 ⟨hnone rfl, nofun⟩
  | unary mem accepts operand ih =>
    exact Node.forall_mem_preorder.2 ⟨hsome mem accepts, List.forall_mem_singleton.2 ih⟩
  | binary mem accepts first second ih₁ ih₂ =>
    refine Node.forall_mem_preorder.2 ⟨hsome mem accepts, ?_⟩
    exact List.forall_mem_cons.2 ⟨ih₁, List.forall_mem_singleton.2 ih₂⟩
  | call mem category operand ih =>
    refine Node.forall_mem_preorder.2 ⟨hsome mem (Rule.accepts_call category), ?_⟩
    refine List.forall_mem_cons.2 ⟨?_, List.forall_mem_singleton.2 ih⟩
    exact Node.forall_mem_preorder.2 ⟨hnone rfl, nofun⟩

/-- Instrumentation keeps the meaning of an expression. The catalog has mocks and the pass gives a
    tree. The evaluation of that tree with the mocks comes to a value that unwraps to the one of the
    expression with natives and without taint, or to the same fault. No value is wrapped twice. -/
theorem evaluate_instrument {entries : List (Entry Value)}
    (htable : Table.ofEntries entries = .ok table) (hcatalog : ofTable table = .ok catalog)
    (hevaluator : evaluator.Untainted) (henv : ∀ name, (env name).Flat) {t : Node}
    (ht : catalog.Expression t) :
    ∃ ns r stats, Namespace.build catalog = .ok ns ∧ catalog.instrument t = .ok (r, stats) ∧
      ∀ s, ∃ outcome s', (r.evaluate (ns.interpretation evaluator env)).run.run s = (outcome, s') ∧
        outcome.map Value.raw = t.evaluate (table.interpretation evaluator env) ∧
        ∀ v, outcome = .ok v → v.Flat := by
  have htable := Table.valid_of_ofEntries htable
  have hc := (valid_of_ofSpecs hcatalog).coherent
  have hrules := rules_of_ofSpecs hcatalog
  refine ⟨_, _, _, Namespace.build_eq htable hrules,
    instrument_eq_ok_iff.2 ⟨ht.exists_find hc, rfl, rfl⟩, fun s => ?_⟩
  obtain ⟨outcome, s', hrun, hagrees⟩ := realizes_evaluate htable hrules hc hevaluator henv ht s
  refine ⟨outcome, s', hrun, ?_⟩
  generalize t.evaluate (table.interpretation evaluator env) = native at hagrees
  cases hagrees with
  | fault f => exact ⟨rfl, nofun⟩
  | @value v r h =>
    obtain ⟨rfl, hr⟩ := h
    refine ⟨rfl, fun w hw => ?_⟩
    cases hw
    exact hr

/-- The expression `eval(x) + "b"`, instrumented with the standard operators, for a tainted `x`. -/
theorem evaluate_instrument_concatenation :
    ∃ catalog ns r stats, ofTable Table.standard = .ok catalog ∧
      Namespace.build catalog = .ok ns ∧
      catalog.instrument (.binary .binary (.text "+")
        (.call (.named "eval") (.list [.node (.named "x")]) [])
        (.literal (.text "b") .null []) []) = .ok (r, stats) ∧
      ∀ s, ∃ outcome s',
        (r.evaluate (ns.interpretation (fun _ => .ok (.text "a"))
          fun _ => .tainted 0 (.text "code") "x")).run.run s = (outcome, s') ∧
        outcome.map Value.raw = .ok (.text "ab") ∧ ∀ v, outcome = .ok v → v.Flat := by
  obtain ⟨catalog, hcatalog⟩ := exists_ofTable_standard
  have hrules : catalog.rules = Table.standard.specs.map Rule.mk := rules_of_ofSpecs hcatalog
  have hplus : Rule.mk ⟨"+", .binary, "__plus__", "js_add"⟩ ∈ catalog.rules := by
    rw [hrules]
    decide
  have heval : Rule.mk ⟨"eval", .function, "__eval__", "js_eval"⟩ ∈ catalog.rules := by
    rw [hrules]
    decide
  have ht : catalog.Expression (.binary .binary (.text "+")
      (.call (.named "eval") (.list [.node (.named "x")]) []) (.literal (.text "b") .null []) []) :=
    .binary hplus rfl (.call heval rfl (.identifier "x" [])) (.literal _ _ rfl)
  have hevaluator : Evaluator.Untainted fun _ => .ok (.text "a") := fun _ _ h => by
    cases h
    rfl
  have henv : ∀ name : String,
      ((fun _ => .tainted 0 (.text "code") "x" : String → Value) name).Flat := fun _ => rfl
  obtain ⟨ns, r, stats, hbuild, hpass, hrun⟩ :=
    evaluate_instrument Table.ofEntries_standard hcatalog hevaluator henv ht
  exact ⟨catalog, ns, r, stats, hcatalog, hbuild, hpass, hrun⟩

end Catalog

end TaintWeave
