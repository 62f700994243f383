import TaintWeave.Proofs.Taint.Raw
import TaintWeave.Proofs.Taint.Resemblance

/-!
# Low equivalence

Who may not see what is tainted cannot tell two tainted values apart. Two values are *low
equivalent* if they are the same but for that: the same primitive, the same object, arrays of low
equivalent items, or two tainted values. Conversions take a tainted value for an object like any
other, so they come to the same for both. A native then comes to low equivalent outcomes, unless it
compares its operands: that two arrays are one object is not to be seen from their items.

* `Value.LowEquivalent`: the relation.
* `Value.LowEquivalent.resembles`, `Value.LowEquivalent.toText_eq`: natives that do not compare
  cannot tell low equivalent values apart.
* `Native.agrees_apply`: natives come to low equivalent outcomes.
-/

namespace TaintWeave

namespace Value

mutual

/-- Two values are the same but for what is tainted in them. -/
inductive LowEquivalent : Value → Value → Prop
  | primitive {v : Value} (h : v.kind ≠ .object) : LowEquivalent v v
  | object (id : Identity) (properties : List (String × Value)) :
      LowEquivalent (.object id properties) (.object id properties)
  | function (id : Identity) (name : Option String) :
      LowEquivalent (.function id name) (.function id name)
  | category (c : Category) : LowEquivalent (.category c) (.category c)
  | sequence {i j : Identity} {shape : Shape} {vs ws : List Value}
      (h : AllLowEquivalent vs ws) :
      LowEquivalent (.sequence i shape vs) (.sequence j shape ws)
  | tainted {i j : Identity} {raw raw' : Value} {label label' : String} :
      LowEquivalent (.tainted i raw label) (.tainted j raw' label')

/-- The values of two lists are low equivalent one by one. -/
inductive AllLowEquivalent : List Value → List Value → Prop
  | nil : AllLowEquivalent [] []
  | cons {v w : Value} {vs ws : List Value} (h : LowEquivalent v w)
      (hrest : AllLowEquivalent vs ws) : AllLowEquivalent (v :: vs) (w :: ws)

end

mutual

/-- A value is low equivalent to itself. -/
theorem LowEquivalent.refl : ∀ v : Value, LowEquivalent v v
  | .undefined | .null | .boolean _ | .number _ | .text _ | .symbol _ => .primitive nofun
  | .sequence _ _ items => .sequence (AllLowEquivalent.refl items)
  | .object id properties => .object id properties
  | .function id name => .function id name
  | .tainted _ _ _ => .tainted
  | .category c => .category c

/-- Values are low equivalent to themselves. -/
theorem AllLowEquivalent.refl : ∀ vs : List Value, AllLowEquivalent vs vs
  | [] => .nil
  | v :: vs => .cons (LowEquivalent.refl v) (AllLowEquivalent.refl vs)

end

variable {v w : Value} {vs ws : List Value}

/-! ## Conversions -/

/-- Low equivalent values are the same if they are primitives. -/
theorem LowEquivalent.eq_of_kind (h : LowEquivalent v w) (hkind : v.kind ≠ .object) : v = w := by
  cases h with
  | primitive _ => rfl
  | object _ _ | function _ _ | category _ | sequence _ | tainted => exact absurd rfl hkind

/-- Low equivalent values are one primitive, or objects of one type. -/
theorem LowEquivalent.resembles (h : LowEquivalent v w) : v.Resembles w where
  kind_eq := by cases h <;> rfl
  typeName_eq := by cases h <;> rfl
  eq_of_kind := h.eq_of_kind

/-- Low equivalent values are both tainted, or neither of them is. -/
theorem LowEquivalent.untainted_iff (h : LowEquivalent v w) : v.Untainted ↔ w.Untainted := by
  cases h with
  | tainted => exact iff_of_false nofun nofun
  | primitive _ | object _ _ | function _ _ | category _ | sequence _ => exact Iff.rfl

mutual

/-- Low equivalent values have the same text. -/
theorem LowEquivalent.toText_eq : ∀ {v w : Value}, LowEquivalent v w → v.toText = w.toText
  | _, _, .primitive _ | _, _, .object _ _ | _, _, .function _ _ | _, _, .category _ => rfl
  | _, _, .sequence h => by rw [toText, toText, AllLowEquivalent.itemTexts_eq h]
  | _, _, .tainted => rfl

/-- Low equivalent items have the same texts. -/
theorem AllLowEquivalent.itemTexts_eq :
    ∀ {vs ws : List Value}, AllLowEquivalent vs ws → itemTexts vs = itemTexts ws
  | _, _, .nil => rfl
  | _, _, .cons h hrest => by
    rw [itemTexts_cons, itemTexts_cons, h.resembles.isAbsent_eq, LowEquivalent.toText_eq h,
      AllLowEquivalent.itemTexts_eq hrest]

end

end Value

open Value

/-! ## Natives -/

/-- A native with one operand comes to low equivalent outcomes. -/
theorem UnaryNative.agrees_apply (evaluator : Evaluator) (op : UnaryNative) {v w : Value}
    (h : LowEquivalent v w) :
    Agrees LowEquivalent (op.apply evaluator v) (op.apply evaluator w) :=
  op.agrees_of_resembles evaluator .refl h h.resembles fun _ => h.toText_eq

/-- A native with two operands comes to low equivalent outcomes if it does not compare them. -/
theorem BinaryNative.agrees_apply {op : BinaryNative} (hop : op.isComparison = false)
    {v v' w w' : Value} (hv : LowEquivalent v v') (hw : LowEquivalent w w') :
    Agrees LowEquivalent (op.apply v w) (op.apply v' w') :=
  op.agrees_of_resembles .refl hv hw hv.resembles hw.resembles
    (fun _ => ⟨hv.toText_eq, hw.toText_eq⟩)
    fun hcompares => absurd (hop.symm.trans hcompares) Bool.false_ne_true

/-- Whether a native compares two operands for equality. -/
def Native.isComparison : Native → Bool
  | unary _ => false
  | binary op => op.isComparison

/-- A native comes to low equivalent outcomes if it does not compare its operands. -/
theorem Native.agrees_apply (evaluator : Evaluator) {native : Native}
    (hnative : native.isComparison = false) {vs ws : List Value} (h : AllLowEquivalent vs ws) :
    Agrees LowEquivalent (native.apply evaluator vs) (native.apply evaluator ws) := by
  -- Both lists have as many operands as the native takes, or neither has.
  match native, h with
  | .unary op, .cons hv .nil => exact op.agrees_apply evaluator hv
  | .binary op, .cons hv (.cons hw .nil) => exact BinaryNative.agrees_apply hnative hv hw
  | .unary _, .nil | .unary _, .cons _ (.cons _ _) => exact .fault .wrongType
  | .binary _, .nil | .binary _, .cons _ .nil | .binary _, .cons _ (.cons _ (.cons _ _)) =>
    exact .fault .wrongType

end TaintWeave
