import Mathlib.Data.List.DropRight
import TaintWeave.Proofs.Taint.Mock
import TaintWeave.Proofs.Taint.Realization

/-!
# The records as a history

What is done with the substrate in memory is a sequence of *actions*: sources are introduced, values
are labelled, sinks are recorded, the records are emptied, and mocks are called. An action may fail,
and the next one starts in the state that it leaves (`Action.after`).

What the records hold can be told from the actions, without a state: every source since the records
were emptied last, and every sink that was reached since then, which for a mock is so if it stands
for a function and its operand is tainted, whatever comes out. Each record is in the order of the
actions and cut to its newest entries.

* `Action.records_call`: what a mock records, and that it does so even if it fails.
* `Action.records_after`: what an action adds to the history.
* `Action.records_afterAll`: the records after a sequence of actions.
* `Action.history_exact`: all together, for every bound.
-/

namespace TaintWeave

/-! ## Newest entries -/

/-- Entries that are cut off early are cut off in the end. -/
theorem Records.newest_concat {α : Type} (limit : Option ℕ) (entries : List α) (a : α) :
    newest limit (newest limit entries ++ [a]) = newest limit (entries ++ [a]) := by
  cases limit with
  | none => rfl
  | some n =>
    have hle : entries.length - n ≤ entries.length := Nat.sub_le _ _
    have hlength : entries.length - n + (entries.length - (entries.length - n) + 1 - n) =
        entries.length + 1 - n := by omega
    simp only [newest]
    rw [← List.drop_append_of_le_length hle, List.drop_drop, List.length_drop, List.length_append,
      List.length_singleton, Nat.sub_add_comm hle, hlength]

/-- The records with a history of sources and sinks. -/
def Records.ofHistory (limit : Option ℕ) (sources : List String) (sinkHits : List SinkHit) :
    Records where
  limit := limit
  sources := newest limit sources
  sinkHits := newest limit sinkHits

/-- Without a history the records are empty, whatever their bound is. -/
theorem Records.ofHistory_nil (limit : Option ℕ) : ofHistory limit [] [] = { limit := limit } := by
  cases limit with
  | none => rfl
  | some n => simp [ofHistory, newest]

/-! ## Actions -/

/-- What is done with the substrate in memory. -/
inductive Action where
  /-- A value is a source of taint under a name. -/
  | taint (v : Value) (name : String)
  /-- A value is given a label. -/
  | wrap (raw : Value) (label : String)
  /-- A sink is recorded, with the label of the value there. -/
  | recordSink (sink label : String)
  /-- The records are emptied. -/
  | clear
  /-- A mock is called, with what runs dynamic code then. -/
  | call (mock : Mock) (evaluator : Evaluator) (operands : List Value)

namespace Action

/-- The computation of an action, without its result. -/
def perform : Action → Run Unit
  | taint v name => do let _ ← Run.taint v name
  | wrap raw label => do let _ ← Substrate.inMemory.wrap raw label
  | recordSink sink label => Run.recordSink sink label
  | clear => Run.clear
  | call mock evaluator operands => do let _ ← mock.call .inMemory evaluator operands

/-- The state after an action, also after one that fails. -/
def after (a : Action) (s : RunState) : RunState := (a.perform.run.run s).2

/-- The state after a sequence of actions. -/
def afterAll (actions : List Action) (s : RunState) : RunState :=
  actions.foldl (fun s a => a.after s) s

/-- Whether an action empties the records. -/
def isClear : Action → Bool
  | clear => true
  | _ => false

/-- The source that an action introduces. -/
def source? : Action → Option String
  | taint _ name => some name
  | _ => none

/-- The sink that an action reaches: one that is recorded, or a function on a tainted value. -/
def hit? : Action → Option SinkHit
  | recordSink sink label => some ⟨sink, label⟩
  | call mock _ [.tainted _ _ label] =>
    if mock.spec.category = .function then
      some ⟨mock.spec.symbol, mock.spec.symbol ++ "(" ++ label ++ ")"⟩
    else none
  | _ => none

/-- The actions since the records were emptied last. -/
def sinceClear (actions : List Action) : List Action := actions.rtakeWhile fun a => !a.isClear

variable {mock : Mock} {evaluator : Evaluator} {operands : List Value} {s : RunState} {a : Action}
  {actions : List Action} {limit : Option ℕ} {sources : List String} {sinkHits : List SinkHit}

/-! ## Mocks -/

/-- The state after a computation does not depend on what is made of its result. -/
theorem state_discard {α : Type} (x : Run α) (s : RunState) :
    ((x >>= fun _ => pure ()).run.run s).2 = (x.run.run s).2 := by
  rcases hx : x.run.run s with ⟨fault | r, s'⟩
  · rw [Run.run_bind_of_error hx]
  · rw [Run.run_bind_of_ok hx]
    rfl

/-- A mock that fails has given its alert before. -/
theorem records_deliver (mock : Mock) (evaluator : Evaluator) (operands : List Value)
    (s : RunState) :
    ((mock.deliver evaluator operands).run.run s).2.records = (mock.alert operands s).records := by
  unfold Mock.deliver
  cases happly : mock.native.apply evaluator (operands.map Value.raw) with
  | error fault => rfl
  | ok r =>
    cases hlabel : mock.label? operands with
    | none => rfl
    | some label => rfl

/-- A mock reaches no sink unless it stands for a function and its operand is tainted. -/
theorem hit?_call_eq_none (h : mock.spec.category ≠ .function ∨
    ∀ id raw label, operands ≠ [.tainted id raw label]) :
    (call mock evaluator operands).hit? = none := by
  rw [hit?.eq_def]
  split
  · rename_i heq
    cases heq
  · rename_i mock' _ id raw label heq
    cases heq
    exact if_neg (h.resolve_right fun hne => hne id raw label rfl)
  · rfl

/-- The mock of a function on a tainted value reaches a sink. -/
theorem hit?_call_function (h : mock.spec.category = .function) (id : Identity) (raw : Value)
    (label : String) :
    (call mock evaluator [.tainted id raw label]).hit? =
      some ⟨mock.spec.symbol, mock.spec.symbol ++ "(" ++ label ++ ")"⟩ :=
  if_pos h

/-- The alert of a mock records the sink that is reached. -/
theorem records_alert (evaluator : Evaluator) (h : operands.length = mock.spec.category.arity)
    (s : RunState) :
    (mock.alert operands s).records =
      (call mock evaluator operands).hit?.elim s.records s.records.addSinkHit := by
  by_cases hfunction : mock.spec.category = .function
  · rw [hfunction] at h
    obtain ⟨v, rfl⟩ := List.length_eq_one_iff.1 h
    rcases v.untainted_or_tainted with hv | ⟨id, raw, label, rfl⟩
    · have hne : ∀ id raw label, [v] ≠ [.tainted id raw label] := by
        rintro id raw label ⟨⟩
        cases hv
      rw [hit?_call_eq_none (.inr hne), Mock.alert,
        Mock.label?_of_untainted (List.forall_mem_singleton.2 hv), hfunction]
      rfl
    · have hequality : mock.spec.category ≠ .equality := by simp [hfunction]
      have htainted : ¬(Value.tainted id raw label).Untainted := Option.some_ne_none label
      have hlabel := Mock.label?_of_tainted hequality (List.mem_singleton_self _) htainted
      rw [hit?_call_function hfunction, Mock.alert, hlabel, hfunction]
      rfl
  · rw [hit?_call_eq_none (.inl hfunction), Mock.alert]
    split
    · rename_i hcategory _
      exact absurd hcategory hfunction
    · rfl

/-- What a mock records: a sink that is reached, also if it fails then. -/
theorem records_call (mock : Mock) (evaluator : Evaluator) (operands : List Value) (s : RunState) :
    ((call mock evaluator operands).after s).records =
      (call mock evaluator operands).hit?.elim s.records s.records.addSinkHit := by
  have hafter : (call mock evaluator operands).after s =
      ((mock.call .inMemory evaluator operands).run.run s).2 := state_discard _ s
  rw [hafter]
  by_cases hlength : operands.length = mock.spec.category.arity
  · rw [Mock.call_eq hlength, records_deliver, records_alert evaluator hlength]
  · have hhit : (call mock evaluator operands).hit? = none := by
      refine hit?_call_eq_none (or_iff_not_imp_left.2 fun hfunction id raw label heq => hlength ?_)
      rw [heq, not_not.1 hfunction]
      rfl
    rw [Mock.call_of_length_ne hlength, hhit]
    rfl

/-! ## Histories -/

/-- What an action adds to the history, unless it empties the records. -/
theorem records_after (hclear : a.isClear = false)
    (h : s.records = .ofHistory limit sources sinkHits) :
    (a.after s).records =
      .ofHistory limit (sources ++ a.source?.toList) (sinkHits ++ a.hit?.toList) := by
  have hsource : ∀ name, (Records.ofHistory limit sources sinkHits).addSource name =
      .ofHistory limit (sources ++ [name]) sinkHits := fun name =>
    congrArg (Records.mk limit · _) (Records.newest_concat limit sources name)
  have hhit : ∀ hit, (Records.ofHistory limit sources sinkHits).addSinkHit hit =
      .ofHistory limit sources (sinkHits ++ [hit]) := fun hit =>
    congrArg (Records.mk limit _) (Records.newest_concat limit sinkHits hit)
  cases a with
  | taint v name =>
    have hafter : ((taint v name).after s).records = s.records.addSource name := rfl
    rw [hafter, h, hsource]
    exact congrArg _ (List.append_nil _).symm
  | wrap raw label =>
    have hafter : ((wrap raw label).after s).records = s.records := rfl
    rw [hafter, h]
    exact congrArg₂ _ (List.append_nil _).symm (List.append_nil _).symm
  | recordSink sink label =>
    have hafter : ((recordSink sink label).after s).records =
        s.records.addSinkHit ⟨sink, label⟩ := rfl
    rw [hafter, h, hhit]
    exact congrArg (Records.ofHistory limit · _) (List.append_nil _).symm
  | clear => cases hclear
  | call mock evaluator operands =>
    have hnone : sources ++ (call mock evaluator operands).source?.toList = sources :=
      List.append_nil _
    rw [records_call, h, hnone]
    cases (call mock evaluator operands).hit? with
    | none =>
      rw [Option.toList_none, List.append_nil]
      rfl
    | some hit => exact hhit hit

/-- Emptied records have no history. -/
theorem records_after_clear (hclear : a.isClear = true)
    (h : s.records = .ofHistory limit sources sinkHits) :
    (a.after s).records = .ofHistory limit [] [] := by
  cases a with
  | clear =>
    have hafter : (clear.after s).records = s.records.clear := rfl
    rw [hafter, h, Records.ofHistory_nil]
    rfl
  | _ => cases hclear

/-- The records after a sequence of actions are those with the history since they were emptied. -/
theorem records_afterAll (actions : List Action) (h : s.records = .ofHistory limit [] []) :
    (afterAll actions s).records =
      .ofHistory limit ((sinceClear actions).filterMap source?)
        ((sinceClear actions).filterMap hit?) := by
  -- The last action decides whether those before it still count.
  induction actions using List.reverseRecOn with
  | nil => exact h
  | append_singleton actions a ih =>
    have hlast : afterAll (actions ++ [a]) s = a.after (afterAll actions s) := List.foldl_concat ..
    rw [hlast, sinceClear, List.rtakeWhile_concat]
    cases hclear : a.isClear with
    | true => exact records_after_clear hclear ih
    | false =>
      have hsingleton : ∀ {β : Type} (f : Action → Option β), [a].filterMap f = (f a).toList := by
        intro β f
        cases hf : f a <;> simp [hf]
      rw [records_after hclear ih, Bool.not_false, if_pos rfl, List.filterMap_append,
        List.filterMap_append, hsingleton, hsingleton]
      rfl

/-! ## The records -/

/-- The newest of some entries, as many as a bound allows. -/
def capped {α : Type} (limit : Option ℤ) (entries : List α) : List α :=
  limit.elim entries fun n => entries.rtake n.toNat

/-- The records of the substrate in memory, without a bound or with one of at least one: after any
    sequence of actions from the start, they hold the sources introduced and the sinks reached since
    they were emptied last, in order, cut to the newest if there is a bound. From any state, a mock
    that stands for no function leaves them as they are, and so does one on untainted operands. -/
theorem history_exact (limit : Option ℤ) (hlimit : ∀ n ∈ limit, 1 ≤ n) :
    ∃ records, Records.ofLimit limit = .ok records ∧
      (∀ (s : RunState) (actions : List Action), s.records = records →
        (afterAll actions s).records.sources =
          capped limit ((sinceClear actions).filterMap source?) ∧
        (afterAll actions s).records.sinkHits =
          capped limit ((sinceClear actions).filterMap hit?)) ∧
      ∀ (s : RunState) (mock : Mock) (evaluator : Evaluator) (operands : List Value),
        (mock.spec.category ≠ .function ∨ ∀ v ∈ operands, v.Untainted) →
          ((call mock evaluator operands).after s).records = s.records := by
  have hcapped : ∀ {α : Type} (entries : List α),
      Records.newest (limit.map Int.toNat) entries = capped limit entries := by
    intro α entries
    cases limit <;> rfl
  refine ⟨.ofHistory (limit.map Int.toNat) [] [], ?_, fun s actions h => ?_, ?_⟩
  · rw [Records.ofHistory_nil]
    cases limit with
    | none => rfl
    | some n => exact if_neg (Int.not_lt.2 (hlimit n rfl))
  · rw [records_afterAll actions h]
    exact ⟨hcapped _, hcapped _⟩
  · intro s mock evaluator operands h
    rw [records_call, hit?_call_eq_none (h.imp_right fun hall id raw label heq => ?_)]
    · rfl
    · subst heq
      cases hall _ (List.mem_singleton_self _)

/-- With a bound of two, a source before the records are emptied is forgotten, and so is the oldest
    of three sinks that are reached since; the newest is there though the call fails. -/
theorem history_exact_failing :
    let mock : Mock := ⟨⟨"eval", .function, "__eval__", "js_eval"⟩, .unary .eval⟩
    let evaluator : Evaluator := fun code => .error (.evaluation code)
    let failing := call mock evaluator [.tainted 1 (.text "x") "b"]
    let actions := [taint (.text "w") "a", recordSink "log" "a", clear, taint (.text "x") "b",
      recordSink "write" "b", recordSink "open" "b", failing]
    ∃ records, Records.ofLimit (some 2) = .ok records ∧
      (afterAll actions { records := records }).records.sources = ["b"] ∧
      (afterAll actions { records := records }).records.sinkHits =
        [⟨"open", "b"⟩, ⟨"eval", "eval(b)"⟩] ∧
      (failing.perform.run.run { records := records }).1 = .error (.evaluation "x") := by
  intro mock evaluator failing actions
  obtain ⟨records, hrecords, hhistory, -⟩ := history_exact (some 2) (by simp)
  obtain ⟨hsources, hsinkHits⟩ := hhistory { records := records } actions rfl
  exact ⟨records, hrecords, hsources.trans rfl, hsinkHits.trans rfl, rfl⟩

end Action

end TaintWeave
