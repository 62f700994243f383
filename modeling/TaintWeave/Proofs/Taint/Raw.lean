import TaintWeave.Native
import TaintWeave.Proofs.Outcome

/-!
# Values without taint

A value carries a label or it does not, and it has a raw value: what it is without its label. A
value is *flat* if there is at most one label to take off. Natives work on raw values and bring no
labels of their own, so what they give carries a label only if it is an operand.

* `Native.untainted_or_mem`: a result without a label, or one of the operands.
* `Native.untainted`: no labels from operands without labels.
* `Native.untainted_of_not_isChoice`: no labels at all, from one that gives no operand back.
-/

namespace TaintWeave

namespace Value

/-- The label of a tainted value. -/
def label? : Value → Option String
  | tainted _ _ label => some label
  | _ => none

/-- What a value is without its label. -/
def raw : Value → Value
  | tainted _ raw _ => raw
  | v => v

/-- Whether a value carries no label. -/
def Untainted (v : Value) : Prop := v.label? = none

/-- Whether a value has at most one label to take off. -/
def Flat (v : Value) : Prop := v.raw.Untainted

/-- A value carries no label, or it is a tainted value. -/
theorem untainted_or_tainted (v : Value) :
    v.Untainted ∨ ∃ id raw label, v = .tainted id raw label := by
  cases v with
  | tainted id raw label => exact .inr ⟨id, raw, label, rfl⟩
  | undefined | null | boolean _ | number _ | text _ | symbol _ | sequence _ _ _ | object _ _
  | function _ _ | category _ => exact .inl rfl

/-- A value without a label is raw. -/
theorem Untainted.raw_eq {v : Value} (h : v.Untainted) : v.raw = v := by
  cases v with
  | tainted _ _ _ => cases h
  | _ => rfl

/-- Values without labels are raw. -/
theorem map_raw_of_untainted {vs : List Value} (h : ∀ v ∈ vs, v.Untainted) :
    vs.map raw = vs :=
  (List.map_congr_left fun v hv => (h v hv).raw_eq).trans (List.map_id' vs)

/-- A value without a label is flat. -/
theorem Untainted.flat {v : Value} (h : v.Untainted) : v.Flat := by
  rw [Flat, h.raw_eq]
  exact h

/-- The primitive form of a value is itself, or carries no label. -/
theorem untainted_toPrimitive (v : Value) : v.toPrimitive.Untainted := by
  rw [toPrimitive]
  -- The primitive form of an object is its text, and a tainted value is an object.
  split
  · rfl
  · rename_i hkind
    rcases v.untainted_or_tainted with h | ⟨id, raw, label, rfl⟩
    · exact h
    · exact absurd rfl hkind

end Value

/-- What runs dynamic code gives values without labels. -/
def Evaluator.Untainted (evaluator : Evaluator) : Prop :=
  ∀ code v, evaluator code = .ok v → v.Untainted

open Value

variable {evaluator : Evaluator} {r v w : Value}

/-- A result that is built without labels from what a step gives carries none. -/
theorem untainted_of_bind {α : Type} {x : Except Fault α} {g : α → Value}
    (h : (do return g (← x)) = Except.ok r) (hg : ∀ a, (g a).Untainted) : r.Untainted := by
  obtain ⟨a, _, ha⟩ := bind_eq_ok.1 h
  cases ha
  exact hg a

/-- A sum carries no label. -/
theorem Value.untainted_add (h : v.add w = .ok r) : r.Untainted := by
  rw [add] at h
  split at h
  · cases h
    rfl
  · obtain ⟨m, _, h⟩ := bind_eq_ok.1 h
    exact untainted_of_bind h fun _ => rfl

/-- A result of arithmetic carries no label. -/
theorem Value.untainted_arithmetic {f : Number → Number → Number} (h : v.arithmetic f w = .ok r) :
    r.Untainted := by
  obtain ⟨m, _, h⟩ := bind_eq_ok.1 h
  exact untainted_of_bind h fun _ => rfl

/-- A result of an operation on words carries no label. -/
theorem Value.untainted_wordwise {f : Int → Int → Int} (h : v.wordwise f w = .ok r) :
    r.Untainted := by
  obtain ⟨m, _, h⟩ := bind_eq_ok.1 h
  exact untainted_of_bind h fun _ => rfl

/-- A native with one operand gives a result without a label, or the operand. -/
theorem UnaryNative.untainted_or_eq (hevaluator : evaluator.Untainted) {op : UnaryNative}
    (h : op.apply evaluator v = .ok r) : r.Untainted ∨ r = v := by
  cases op with
  | bitwiseNot | logicalNot | increment | decrement | toBoolean | toNumber | toInt32 | toUInt32 =>
    exact .inl (untainted_of_bind h fun _ => rfl)
  | typeof =>
    cases h
    exact .inl rfl
  | eval =>
    -- Only a text is run; any other value is its own result.
    rw [apply] at h
    split at h
    · exact .inl (hevaluator _ r h)
    · cases h
      exact .inr rfl
  | toText =>
    cases v <;> cases h <;> exact .inl rfl
  | toPrimitive =>
    cases h
    exact .inl v.untainted_toPrimitive
  | toDouble =>
    cases v with
    | number n =>
      cases h
      exact .inl rfl
    | undefined | null | boolean _ | text _ | symbol _ | sequence _ _ _ | object _ _ | function _ _
    | tainted _ _ _ | category _ =>
      cases h
      exact .inr rfl

/-- Whether a native gives one of its operands back. -/
def BinaryNative.isChoice (op : BinaryNative) : Bool := op == logicalAnd || op == logicalOr

/-- A native with two operands gives a result without a label if it gives none of them back. -/
theorem BinaryNative.untainted_of_not_isChoice {op : BinaryNative} (hchoice : op.isChoice = false)
    (h : op.apply v w = .ok r) : r.Untainted := by
  cases op with
  | add => exact untainted_add h
  | subtract | multiply | divide | modulus => exact untainted_arithmetic h
  | bitwiseAnd | bitwiseOr | bitwiseXor | shiftLeft | shiftRight => exact untainted_wordwise h
  | logicalAnd | logicalOr => cases hchoice
  | greater | lesser | greaterEqual | lesserEqual | doubleEqual | looseEquals | doubleInequal =>
    exact untainted_of_bind h fun _ => rfl
  | tripleEqual | strictEquals | tripleInequal =>
    cases h
    rfl

/-- A native that gives one of its operands back gives one of them. -/
theorem BinaryNative.eq_or_eq_of_isChoice {op : BinaryNative} (hchoice : op.isChoice = true)
    (h : op.apply v w = .ok r) : r = v ∨ r = w := by
  cases op with
  | logicalAnd =>
    obtain ⟨_ | _, _, hr⟩ := bind_eq_ok.1 h
    · exact .inl (Except.ok.inj hr).symm
    · exact .inr (Except.ok.inj hr).symm
  | logicalOr =>
    obtain ⟨_ | _, _, hr⟩ := bind_eq_ok.1 h
    · exact .inr (Except.ok.inj hr).symm
    · exact .inl (Except.ok.inj hr).symm
  | add | subtract | multiply | divide | modulus | bitwiseAnd | bitwiseOr | bitwiseXor | shiftLeft
  | shiftRight | greater | lesser | greaterEqual | lesserEqual | doubleEqual | tripleEqual
  | doubleInequal | tripleInequal | strictEquals | looseEquals => cases hchoice

namespace Native

variable {native : Native} {operands : List Value}

/-- A native gives a result without a label, or one of its operands. -/
theorem untainted_or_mem (hevaluator : evaluator.Untainted)
    (h : native.apply evaluator operands = .ok r) : r.Untainted ∨ r ∈ operands := by
  unfold apply at h
  split at h
  · exact (UnaryNative.untainted_or_eq hevaluator h).imp_right List.mem_singleton.2
  · rename_i op v w
    cases hchoice : op.isChoice with
    | false => exact .inl (BinaryNative.untainted_of_not_isChoice hchoice h)
    | true =>
      refine .inr ?_
      rcases BinaryNative.eq_or_eq_of_isChoice hchoice h with rfl | rfl
      · exact List.mem_cons_self
      · exact List.mem_cons_of_mem _ List.mem_cons_self
  · cases h

/-- Whether a native gives one of two operands back. -/
def isChoice : Native → Bool
  | unary _ => false
  | binary op => op.isChoice

/-- A native on two operands gives a result without a label if it gives none of them back. -/
theorem untainted_of_not_isChoice (hchoice : native.isChoice = false)
    (hlength : operands.length = 2) (h : native.apply evaluator operands = .ok r) :
    r.Untainted := by
  unfold apply at h
  split at h
  · cases hlength
  · exact BinaryNative.untainted_of_not_isChoice hchoice h
  · cases h

/-- A native on operands without labels gives a result without one. -/
theorem untainted (hevaluator : evaluator.Untainted) (hoperands : ∀ v ∈ operands, v.Untainted)
    (h : native.apply evaluator operands = .ok r) : r.Untainted :=
  (untainted_or_mem hevaluator h).elim id (hoperands r)

end Native

end TaintWeave
