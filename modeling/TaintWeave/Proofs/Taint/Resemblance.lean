import TaintWeave.Native
import TaintWeave.Proofs.Taint.Realization

/-!
# Resemblance

A native can look at an object in three ways: it can ask for the type, turn the object into a text,
or compare it with another object. Two values *resemble* each other if they are one primitive, or
objects of one type. Natives that turn no object into a text cannot tell such values apart, the
others can by the text alone, and comparisons by the identity as well.

* `Value.Resembles`: the relation.
* `UnaryNative.readsText`, `BinaryNative.readsText`: whether a native turns objects into texts.
* `UnaryNative.agrees_of_resembles`, `BinaryNative.agrees_of_resembles`: natives on operands that
  resemble each other come to the same, up to any relation that holds between the operands.
-/

namespace TaintWeave

namespace Value

/-- Two values are one primitive, or objects of one type. -/
structure Resembles (v w : Value) : Prop where
  kind_eq : v.kind = w.kind
  typeName_eq : v.typeName = w.typeName
  eq_of_kind : v.kind ≠ .object → v = w

/-- An object has the number of its text. -/
theorem toNumber_of_kind {v : Value} (h : v.kind = .object) :
    v.toNumber = (Numeral.read v.toText).value := by
  cases v with
  | undefined | null | boolean _ | number _ | text _ | symbol _ => cases h
  | _ => rfl

/-- The text of an item is its own, unless the item is absent. -/
theorem itemTexts_cons (v : Value) (vs : List Value) :
    itemTexts (v :: vs) = (if v.isAbsent then "" else v.toText) :: itemTexts vs := by
  cases v <;> rfl

/-- Strict equality with an object on the left compares identities. -/
theorem strictEqual_of_kind_left {v w : Value} (h : v.kind = .object) :
    v.strictEqual w = v.sameObject w := by
  cases v with
  | sequence _ _ _ => cases w <;> simp [strictEqual, text?, sameObject]
  | object _ _ | function _ _ | tainted _ _ _ | category _ => cases w <;> rfl
  | undefined | null | boolean _ | number _ | text _ | symbol _ => cases h

/-- Strict equality with an object on the right compares identities. -/
theorem strictEqual_of_kind_right {v w : Value} (h : w.kind = .object) :
    v.strictEqual w = v.sameObject w := by
  cases w with
  | sequence _ _ _ | object _ _ | function _ _ | tainted _ _ _ | category _ => cases v <;> rfl
  | undefined | null | boolean _ | number _ | text _ | symbol _ => cases h

namespace Resembles

variable {v w v' w' : Value}

/-- A value resembles itself. -/
theorem refl (v : Value) : v.Resembles v := ⟨rfl, rfl, fun _ => rfl⟩

/-- What is one and the same for all objects is so for values that resemble each other. -/
theorem congr {α : Type} (h : v.Resembles w) (f : Value → α) (a : α)
    (hobject : ∀ u : Value, u.kind = .object → f u = a) : f v = f w := by
  by_cases hkind : v.kind = .object
  · rw [hobject v hkind, hobject w (h.kind_eq ▸ hkind)]
  · rw [h.eq_of_kind hkind]

/-- They are the same texts. -/
theorem text?_eq (h : v.Resembles w) : v.text? = w.text? :=
  h.congr text? none fun u hu => by
    cases u with
    | undefined | null | boolean _ | number _ | text _ | symbol _ => cases hu
    | _ => rfl

/-- They are both absent, or neither of them is. -/
theorem isAbsent_eq (h : v.Resembles w) : v.isAbsent = w.isAbsent :=
  h.congr isAbsent false fun u hu => by
    cases u with
    | undefined | null | boolean _ | number _ | text _ | symbol _ => cases hu
    | _ => rfl

/-- They count as true or not alike. -/
theorem toBoolean_eq (h : v.Resembles w) : v.toBoolean = w.toBoolean :=
  h.congr toBoolean (.ok true) fun u hu => by
    cases u with
    | undefined | null | boolean _ | number _ | text _ | symbol _ => cases hu
    | _ => rfl

/-- With the same text, they have the same primitive form. -/
theorem toPrimitive_eq (h : v.Resembles w) (htext : v.toText = w.toText) :
    v.toPrimitive = w.toPrimitive := by
  rw [toPrimitive, toPrimitive, ← h.kind_eq]
  split
  · rw [htext]
  · rename_i hkind
    exact h.eq_of_kind hkind

/-- With the same text, they have the same number. -/
theorem toNumber_eq (h : v.Resembles w) (htext : v.toText = w.toText) :
    v.toNumber = w.toNumber := by
  by_cases hkind : v.kind = .object
  · rw [toNumber_of_kind hkind, toNumber_of_kind (h.kind_eq ▸ hkind), htext]
  · rw [h.eq_of_kind hkind]

/-- With the same text, they have the same word. -/
theorem toInt32_eq (h : v.Resembles w) (htext : v.toText = w.toText) : v.toInt32 = w.toInt32 := by
  rw [toInt32, toInt32, h.toNumber_eq htext]

/-- Strict equality sees no more of objects than which they are. -/
theorem strictEqual_eq (hv : v.Resembles v') (hw : w.Resembles w')
    (hsame : v.sameObject w = v'.sameObject w') : v.strictEqual w = v'.strictEqual w' := by
  by_cases hleft : v.kind = .object
  · rw [strictEqual_of_kind_left hleft, strictEqual_of_kind_left (hv.kind_eq ▸ hleft), hsame]
  · by_cases hright : w.kind = .object
    · rw [strictEqual_of_kind_right hright, strictEqual_of_kind_right (hw.kind_eq ▸ hright), hsame]
    · rw [hv.eq_of_kind hleft, hw.eq_of_kind hright]

/-- With the same texts, loose equality sees no more of objects than which they are. -/
theorem looseEqual_eq (hv : v.Resembles v') (hw : w.Resembles w')
    (hleft : v.toText = v'.toText) (hright : w.toText = w'.toText)
    (hsame : v.sameObject w = v'.sameObject w') : v.looseEqual w = v'.looseEqual w' := by
  rw [looseEqual, looseEqual, hv.kind_eq, hw.kind_eq, hv.strictEqual_eq hw hsame, hv.isAbsent_eq,
    hw.isAbsent_eq, hv.toPrimitive_eq hleft, hw.toPrimitive_eq hright]

end Resembles

end Value

open Value

variable {R : Value → Value → Prop} {v w v' w' : Value}

/-- An outcome agrees with itself, up to a reflexive relation. -/
theorem agrees_refl (hR : ∀ v, R v v) (x : Except Fault Value) : Agrees R x x := by
  rcases x with fault | v
  · exact .fault fault
  · exact .value (hR v)

/-- What agrees with a value is a related value. -/
theorem Agrees.exists_of_eq_ok {x y : Except Fault Value} (h : Agrees R x y) (hx : x = .ok v) :
    ∃ w, y = .ok w ∧ R v w := by
  subst hx
  cases h with
  | value hrel => exact ⟨_, rfl, hrel⟩

/-! ## Natives with one operand -/

namespace UnaryNative

/-- Whether a native turns an object into a text. -/
def readsText : UnaryNative → Bool
  | logicalNot | typeof | eval | toBoolean | toDouble => false
  | _ => true

/-- The text of an object is a text. -/
theorem apply_toText_of_kind (evaluator : Evaluator) (h : v.kind = .object) :
    toText.apply evaluator v = .ok (.text v.toText) := by
  cases v with
  | undefined | null | boolean _ | number _ | text _ | symbol _ => cases h
  | _ => rfl

/-- An object is no double. -/
theorem apply_toDouble_of_kind (evaluator : Evaluator) (h : v.kind = .object) :
    toDouble.apply evaluator v = .ok v := by
  cases v with
  | undefined | null | boolean _ | number _ | text _ | symbol _ => cases h
  | _ => rfl

/-- A native on operands that resemble each other, with the same text if that matters. -/
theorem agrees_of_resembles (evaluator : Evaluator) (op : UnaryNative) (hR : ∀ v, R v v)
    (hrel : R v w) (h : v.Resembles w) (htext : op.readsText = true → v.toText = w.toText) :
    Agrees R (op.apply evaluator v) (op.apply evaluator w) := by
  cases op with
  | bitwiseNot | toInt32 =>
    rw [apply, apply, h.toInt32_eq (htext rfl)]
    exact agrees_refl hR _
  | toUInt32 =>
    rw [apply, apply, Value.toUInt32, Value.toUInt32, h.toInt32_eq (htext rfl)]
    exact agrees_refl hR _
  | logicalNot | toBoolean =>
    rw [apply, apply, h.toBoolean_eq]
    exact agrees_refl hR _
  | increment | decrement | toNumber =>
    rw [apply, apply, h.toNumber_eq (htext rfl)]
    exact agrees_refl hR _
  | typeof =>
    rw [apply, apply, h.typeName_eq]
    exact agrees_refl hR _
  | toPrimitive =>
    rw [apply, apply, h.toPrimitive_eq (htext rfl)]
    exact agrees_refl hR _
  | eval =>
    rw [apply, apply, h.text?_eq]
    -- The same text is run, or both operands are given back.
    cases w.text? with
    | some code => exact agrees_refl hR _
    | none => exact .value hrel
  | toText =>
    by_cases hkind : v.kind = .object
    · rw [apply_toText_of_kind evaluator hkind, htext rfl,
        apply_toText_of_kind evaluator (h.kind_eq ▸ hkind)]
      exact agrees_refl hR _
    · rw [h.eq_of_kind hkind]
      exact agrees_refl hR _
  | toDouble =>
    by_cases hkind : v.kind = .object
    · rw [apply_toDouble_of_kind evaluator hkind,
        apply_toDouble_of_kind evaluator (h.kind_eq ▸ hkind)]
      exact .value hrel
    · rw [h.eq_of_kind hkind]
      exact agrees_refl hR _

end UnaryNative

/-! ## Natives with two operands -/

namespace BinaryNative

/-- Whether a native turns an object into a text. -/
def readsText : BinaryNative → Bool
  | logicalAnd | logicalOr | tripleEqual | tripleInequal | strictEquals => false
  | _ => true

/-- Whether a native compares two operands for equality. -/
def isComparison : BinaryNative → Bool
  | doubleEqual | tripleEqual | doubleInequal | tripleInequal | strictEquals | looseEquals => true
  | _ => false

/-- A native on operands that resemble each other, with the same texts if they matter, and the same
    objects if that does. -/
theorem agrees_of_resembles (op : BinaryNative) (hR : ∀ v, R v v) (hvR : R v v') (hwR : R w w')
    (hv : v.Resembles v') (hw : w.Resembles w')
    (htext : op.readsText = true → v.toText = v'.toText ∧ w.toText = w'.toText)
    (hsame : op.isComparison = true → v.sameObject w = v'.sameObject w') :
    Agrees R (op.apply v w) (op.apply v' w') := by
  cases op with
  | add =>
    obtain ⟨hleft, hright⟩ := htext rfl
    rw [apply, apply, Value.add, Value.add, hv.toPrimitive_eq hleft, hw.toPrimitive_eq hright]
    exact agrees_refl hR _
  | subtract | multiply | divide | modulus =>
    obtain ⟨hleft, hright⟩ := htext rfl
    rw [apply, apply, arithmetic, arithmetic, hv.toNumber_eq hleft, hw.toNumber_eq hright]
    exact agrees_refl hR _
  | bitwiseAnd | bitwiseOr | bitwiseXor | shiftLeft | shiftRight =>
    obtain ⟨hleft, hright⟩ := htext rfl
    rw [apply, apply, wordwise, wordwise, hv.toInt32_eq hleft, hw.toInt32_eq hright]
    exact agrees_refl hR _
  | greater | lesser | greaterEqual | lesserEqual =>
    obtain ⟨hleft, hright⟩ := htext rfl
    rw [apply, apply, compares, compares, Value.compare, Value.compare, hv.toPrimitive_eq hleft,
      hw.toPrimitive_eq hright]
    exact agrees_refl hR _
  -- Where an operand is chosen, the choice is the same for both.
  | logicalAnd =>
    rw [apply, apply, hv.toBoolean_eq]
    rcases v'.toBoolean with fault | _ | _
    · exact .fault fault
    · exact .value hvR
    · exact .value hwR
  | logicalOr =>
    rw [apply, apply, hv.toBoolean_eq]
    rcases v'.toBoolean with fault | _ | _
    · exact .fault fault
    · exact .value hwR
    · exact .value hvR
  | tripleEqual | tripleInequal | strictEquals =>
    rw [apply, apply, hv.strictEqual_eq hw (hsame rfl)]
    exact agrees_refl hR _
  | doubleEqual | doubleInequal | looseEquals =>
    obtain ⟨hleft, hright⟩ := htext rfl
    rw [apply, apply, hv.looseEqual_eq hw hleft hright (hsame rfl)]
    exact agrees_refl hR _

end BinaryNative

end TaintWeave
