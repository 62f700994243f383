import TaintWeave.Proofs.Taint.Mock
import TaintWeave.Proofs.Taint.Resemblance

/-!
# Taint in containers

A mock takes the taint off an operand, but not off the items of an array. A tainted item reaches
the native as it is, and the native takes it for an object like any other: its text is that of an
object, and it is tainted no more once it has become a text. So what a mock does with an array is
what it does with the array stripped of all its taint only if the native does not read the items.

* `Value.stripped`: a value with the taint taken off at every depth.
* `Value.sealed`: a value with plain objects for what is tainted in it.
* `Native.apply_replaceTainted`: a native before and after such a replacement in its operands.
* `Mock.call_of_containers`: what a mock does with operands that hold tainted values.
-/

namespace TaintWeave

namespace Value

mutual

/-- Replaces what is tainted in a value, from the inside. -/
def replaceTainted (f : Identity → Value → Value) : Value → Value
  | sequence id shape items => sequence id shape (replaceAllTainted f items)
  | tainted id raw _ => f id (replaceTainted f raw)
  | v => v

/-- Replaces what is tainted in several values. -/
def replaceAllTainted (f : Identity → Value → Value) : List Value → List Value
  | [] => []
  | v :: vs => replaceTainted f v :: replaceAllTainted f vs

end

/-- A value with the taint taken off at every depth. -/
def stripped : Value → Value := replaceTainted fun _ raw => raw

/-- A value with an object without properties for each tainted value in it. -/
def sealed : Value → Value := replaceTainted fun id _ => object id []

variable {f : Identity → Value → Value} {v w : Value}

mutual

/-- Nothing is left to replace, if there is nothing to replace in what is put in. -/
theorem replaceTainted_replaceTainted
    (hf : ∀ id v, replaceTainted f v = v → replaceTainted f (f id v) = f id v) :
    ∀ v, replaceTainted f (replaceTainted f v) = replaceTainted f v
  | undefined | null | boolean _ | number _ | text _ | symbol _ | object _ _ | function _ _
  | category _ => rfl
  | sequence id shape items => by
    rw [replaceTainted, replaceTainted, replaceAllTainted_replaceAllTainted hf items]
  | tainted id raw _ => hf id _ (replaceTainted_replaceTainted hf raw)

/-- Nothing is left to replace in several values. -/
theorem replaceAllTainted_replaceAllTainted
    (hf : ∀ id v, replaceTainted f v = v → replaceTainted f (f id v) = f id v) :
    ∀ vs, replaceAllTainted f (replaceAllTainted f vs) = replaceAllTainted f vs
  | [] => rfl
  | v :: vs => by
    rw [replaceAllTainted, replaceAllTainted, replaceTainted_replaceTainted hf v,
      replaceAllTainted_replaceAllTainted hf vs]

end

/-- Taint that is taken off is gone. -/
theorem stripped_stripped (v : Value) : v.stripped.stripped = v.stripped :=
  replaceTainted_replaceTainted (fun _ _ h => h) v

/-- A sealed value holds nothing tainted. -/
theorem sealed_sealed (v : Value) : v.sealed.sealed = v.sealed :=
  replaceTainted_replaceTainted (fun _ _ _ => rfl) v

/-- The outermost taint is the first that is taken off. -/
theorem stripped_raw (v : Value) : v.raw.stripped = v.stripped := by
  cases v <;> rfl

/-- A value without a label keeps its type when what it holds is replaced. -/
theorem Untainted.resembles_replaceTainted (hv : v.Untainted) :
    v.Resembles (v.replaceTainted f) := by
  cases v with
  | undefined | null | boolean _ | number _ | text _ | symbol _ | object _ _ | function _ _
  | category _ => exact .refl _
  | sequence _ _ _ => exact ⟨rfl, rfl, fun hkind => absurd rfl hkind⟩
  | tainted _ _ _ => cases hv

/-- Values without labels keep their identity when what they hold is replaced. -/
theorem Untainted.sameObject_replaceTainted (hv : v.Untainted) (hw : w.Untainted) :
    (v.replaceTainted f).sameObject (w.replaceTainted f) = v.sameObject w := by
  cases v with
  | undefined | null | boolean _ | number _ | text _ | symbol _ => rfl
  | object _ _ | function _ _ | category _ =>
    cases w with
    | tainted _ _ _ => cases hw
    | _ => rfl
  | tainted _ _ _ => cases hv
  | sequence i shape items =>
    cases w with
    | sequence j shape' items' =>
      -- Two empty tuples are one, and a sequence stays empty or not.
      cases shape <;> cases shape' <;> cases items <;> cases items' <;> rfl
    | undefined | null | boolean _ | number _ | text _ | symbol _ | object _ _ | function _ _
    | category _ => cases shape <;> cases items <;> rfl
    | tainted _ _ _ => cases hw

/-- A sealed value is absent if it was. -/
theorem isAbsent_sealed (v : Value) : v.sealed.isAbsent = v.isAbsent := by
  cases v <;> rfl

mutual

/-- Sealing what a value holds leaves its text. -/
theorem toText_sealed : ∀ v : Value, v.sealed.toText = v.toText
  | undefined | null | boolean _ | number _ | text _ | symbol _ | object _ _ | function _ _
  | category _ | tainted _ _ _ => rfl
  | sequence id shape items => by
    rw [sealed, replaceTainted, toText, toText, itemTexts_sealed items]

/-- Sealing what items hold leaves their texts. -/
theorem itemTexts_sealed : ∀ vs : List Value,
    itemTexts (replaceAllTainted (fun id _ => object id []) vs) = itemTexts vs
  | [] => rfl
  | v :: vs => by
    rw [replaceAllTainted, ← sealed, itemTexts_cons, itemTexts_cons, isAbsent_sealed,
      toText_sealed v, itemTexts_sealed vs]

end

end Value

open Value

/-! ## Natives -/

namespace Native

/-- Whether a native turns an object into a text. -/
def readsText : Native → Bool
  | unary op => op.readsText
  | binary op => op.readsText

variable {f : Identity → Value → Value} {evaluator : Evaluator} {native : Native}
  {operands : List Value} {r : Value}

/-- A native does the same before and after a replacement of what is tainted in its operands, if it
    does not read their texts or they are the same before and after. -/
theorem apply_replaceTainted
    (hf : ∀ id v, replaceTainted f v = v → replaceTainted f (f id v) = f id v)
    (huntainted : ∀ v ∈ operands, v.Untainted)
    (htext : native.readsText = true → ∀ v ∈ operands, v.toText = (v.replaceTainted f).toText)
    (h : native.apply evaluator operands = .ok r) :
    ∃ r', native.apply evaluator (operands.map (replaceTainted f)) = .ok r' ∧
      r'.replaceTainted f = r.replaceTainted f := by
  have hrel : ∀ v, replaceTainted f v = replaceTainted f (replaceTainted f v) :=
    fun v => (replaceTainted_replaceTainted hf v).symm
  have hagrees : Agrees (fun v w => v.replaceTainted f = w.replaceTainted f)
      (native.apply evaluator operands)
      (native.apply evaluator (operands.map (replaceTainted f))) := by
    unfold apply at h
    split at h
    · rename_i op v
      rw [List.forall_mem_singleton] at huntainted
      exact op.agrees_of_resembles evaluator (fun _ => rfl) (hrel v)
        huntainted.resembles_replaceTainted
        fun hreads => htext hreads v (List.mem_singleton_self v)
    · rename_i op v w
      obtain ⟨hv, hw⟩ := List.forall_mem_cons.1 huntainted
      rw [List.forall_mem_singleton] at hw
      exact op.agrees_of_resembles (fun _ => rfl) (hrel v) (hrel w)
        hv.resembles_replaceTainted hw.resembles_replaceTainted
        (fun hreads => ⟨htext hreads v List.mem_cons_self,
          htext hreads w (List.mem_cons_of_mem _ List.mem_cons_self)⟩)
        fun _ => (hv.sameObject_replaceTainted hw).symm
    · cases h
  obtain ⟨r', hr', hresult⟩ := hagrees.exists_of_eq_ok h
  exact ⟨r', hr', hresult.symm⟩

end Native

/-! ## Mocks -/

namespace Mock

variable {mock : Mock} {evaluator : Evaluator} {operands : List Value} {v : Value}
  {s s' : RunState}

/-- A mock that is no equality labels its result if it has a tainted operand, and else not. -/
theorem result_of_tainted (hcategory : mock.spec.category ≠ .equality) {id : Identity} {r : Value}
    (htainted : ∃ operand ∈ operands, ¬operand.Untainted) :
    ∃ label, mock.result operands id r = .tainted id r label := by
  obtain ⟨operand, hoperand, htainted⟩ := htainted
  rw [result, label?_of_tainted hcategory hoperand htainted]
  exact ⟨_, rfl⟩

/-- What the mock of a unary or binary operator does with operands that hold tainted values. It
    takes the taint off the operands alone and applies the native, and the result is tainted if an
    operand itself is, and else not. To the native, what is tainted inside the operands are objects
    without properties. If it does not read the texts of the operands, or they are what they are
    without any taint, the result is the one on the operands without any taint, up to the taint
    inside. -/
theorem call_of_containers
    (hcategory : mock.spec.category = .unary ∨ mock.spec.category = .binary)
    (h : (mock.call .inMemory evaluator operands).run.run s = (.ok v, s')) :
    ∃ r, mock.native.apply evaluator (operands.map raw) = .ok r ∧
      ((∃ operand ∈ operands, ¬operand.Untainted) → ∃ id label, v = .tainted id r label) ∧
      ((∀ operand ∈ operands, operand.Untainted) →
        v = r ∧ (evaluator.Untainted → v.Untainted)) ∧
      ((∀ operand ∈ operands, operand.Flat) →
        (∃ r', mock.native.apply evaluator (operands.map fun operand => operand.raw.sealed) =
          .ok r' ∧ r'.sealed = r.sealed) ∧
        ((mock.native.readsText = true →
            ∀ operand ∈ operands, operand.raw.toText = operand.stripped.toText) →
          ∃ r', mock.native.apply evaluator (operands.map stripped) = .ok r' ∧
            r'.stripped = r.stripped)) := by
  have hne : mock.spec.category ≠ .equality := by
    rcases hcategory with hcategory | hcategory <;> rw [hcategory] <;> exact nofun
  obtain ⟨-, id, r, hr, rfl⟩ := call_eq_ok h
  refine ⟨r, hr, fun htainted => ⟨id, result_of_tainted hne htainted⟩, fun huntainted => ?_,
    fun hflat => ⟨?_, fun htext => ?_⟩⟩
  · rw [result, label?_of_untainted huntainted]
    rw [map_raw_of_untainted huntainted] at hr
    exact ⟨rfl, fun hevaluator => Native.untainted hevaluator huntainted hr⟩
  · obtain ⟨r', hr', hresult⟩ := Native.apply_replaceTainted (fun _ _ _ => rfl)
      (List.forall_mem_map.2 hflat) (fun _ w _ => w.toText_sealed.symm) hr
    rw [List.map_map] at hr'
    exact ⟨r', hr', hresult⟩
  · have hstripped : operands.map stripped = (operands.map raw).map stripped := by
      rw [List.map_map]
      exact List.map_congr_left fun operand _ => operand.stripped_raw.symm
    rw [hstripped]
    refine Native.apply_replaceTainted (fun _ _ h => h) (List.forall_mem_map.2 hflat)
      (fun hreads => List.forall_mem_map.2 fun operand hoperand => ?_) hr
    rw [← stripped, stripped_raw]
    exact htext hreads operand hoperand

/-- A conjunction of an array with a tainted item and a tainted text: the array counts as true
    whatever it holds, so the result is the text that it is without any taint. -/
theorem call_of_containers_conjunction :
    ∃ s' r', (call .inMemory (fun _ => .ok .null)
        ⟨⟨"&&", .binary, "__logical_and__", "js_logical_and"⟩, .binary .logicalAnd⟩
        [.sequence 1 .list [.tainted 0 (.text "a") "x"], .tainted 2 (.text "b") "y"]).run.run
          { fresh := 3, records := { limit := none } } =
        (.ok (.tainted 3 (.text "b") "&&(value([object Object]),y)"), s') ∧
      Native.apply (fun _ => .ok .null) (.binary .logicalAnd)
        [.sequence 1 .list [.text "a"], .text "b"] = .ok r' ∧ r'.stripped = .text "b" := by
  have hrun : (call .inMemory (fun _ => .ok .null)
      ⟨⟨"&&", .binary, "__logical_and__", "js_logical_and"⟩, .binary .logicalAnd⟩
      [.sequence 1 .list [.tainted 0 (.text "a") "x"], .tainted 2 (.text "b") "y"]).run.run
        { fresh := 3, records := { limit := none } } =
      (.ok (.tainted 3 (.text "b") "&&(value([object Object]),y)"),
        { fresh := 4, records := { limit := none } }) := rfl
  obtain ⟨r, hr, -, -, hflat⟩ := call_of_containers (.inr rfl) hrun
  have hstripped := (hflat (List.forall_mem_cons.2 ⟨rfl, List.forall_mem_singleton.2 rfl⟩)).2 nofun
  obtain ⟨r', hr', hresult⟩ := hstripped
  cases hr
  exact ⟨_, r', hrun, hr', hresult⟩

/-- A tainted item is not looked into: it counts with its text as an object, and the sum is not
    tainted. -/
theorem call_of_tainted_item :
    (call .inMemory (fun _ => .ok .null)
        ⟨⟨"+", .binary, "__plus__", "js_add"⟩, .binary .add⟩
        [.sequence 1 .list [.tainted 0 (.text "a") "src"], .text "b"]).run.run
          { fresh := 2, records := { limit := none } } =
        (.ok (.text "[object Object]b"), { fresh := 2, records := { limit := none } }) ∧
      Native.apply (fun _ => .ok .null) (.binary .add)
        ([.sequence 1 .list [.tainted 0 (.text "a") "src"], .text "b"].map stripped) =
        .ok (.text "ab") ∧
      (text "[object Object]b").raw ≠ text "ab" ∧ (text "[object Object]b").Untainted :=
  ⟨rfl, rfl, by simp [raw], rfl⟩

end Mock

end TaintWeave
