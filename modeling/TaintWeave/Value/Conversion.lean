import TaintWeave.Number.Digits
import TaintWeave.Value.Basic

/-!
# Conversions and equality

The conversions between the types of the language, and its two equalities.

* `Value.toText` never fails. `Value.toNumber` fails only on a whole numeral of
  too many digits, and `Value.toBoolean` only on an integer beyond all doubles.
* `Value.strictEqual`: same type and same value, objects by identity.
* `Value.looseEqual`: `null` and `undefined` are equal, and other values of
  different types are compared after conversion.
-/

namespace TaintWeave.Value

mutual

/-- The text of a value. -/
def toText : Value → String
  | undefined => "undefined"
  | null => "null"
  | boolean b => if b then "true" else "false"
  | number n => n.toText
  | text s | symbol s => s
  | sequence _ _ items => String.intercalate "," (itemTexts items)
  | function _ name => "function " ++ name.getD "" ++ "() \x7b [native code] \x7d"
  | object _ _ | tainted _ _ _ | category _ => "[object Object]"

/-- The texts of the items of a sequence; `null` and `undefined` have none. -/
def itemTexts : List Value → List String
  | [] => []
  | undefined :: vs | null :: vs => "" :: itemTexts vs
  | v :: vs => toText v :: itemTexts vs

end

/-- The value itself if it is a primitive, and else its text. -/
def toPrimitive (v : Value) : Value :=
  if v.kind = .object then .text v.toText else v

/-- Whether a value counts as true. -/
def toBoolean : Value → Except Fault Bool
  | undefined | null => .ok false
  | boolean b => .ok b
  | number (.int n) =>
    if n ≠ 0 ∧ (Double.ofInt n).isInfinite then .error .numberTooLarge else .ok (n != 0)
  | number (.float x) => .ok !(x.isZero || x.isNaN)
  | text s | symbol s => .ok !s.isEmpty
  | _ => .ok true

/-- The number of a value. -/
def toNumber : Value → Except Fault Number
  | undefined => .ok (.float .nan)
  | null => .ok (.int 0)
  | boolean b => .ok (.int (if b then 1 else 0))
  | number n => .ok n.normalize
  | text s | symbol s => (Numeral.read s).value
  | v => (Numeral.read v.toText).value

/-- The signed 32-bit word of a value. -/
def toInt32 (v : Value) : Except Fault Int := v.toNumber.map Number.toInt32

/-- The unsigned 32-bit word of a value. -/
def toUInt32 (v : Value) : Except Fault Int := v.toInt32.map fun n => Word.bits n

/-- Strict equality. -/
def strictEqual : Value → Value → Bool
  | undefined, undefined | null, null => true
  | boolean a, boolean b => a == b
  | number m, number n => m.equal n
  | v, w =>
    match v.text?, w.text? with
    | some s, some t => s == t
    | none, none => v.sameObject w
    | _, _ => false

/-- Whether a value is `null` or `undefined`. -/
def isAbsent : Value → Bool
  | undefined | null => true
  | _ => false

/-- Equality of a value that is not an object with one. Truth values count as
    numbers, and a text is compared with a number as a number. -/
def looseEqualPrimitive (v w : Value) : Except Fault Bool :=
  if v.kind = w.kind then .ok (v.strictEqual w)
  else if v.isAbsent || w.isAbsent then .ok (v.isAbsent && w.isAbsent)
  else do
    let m ← v.toNumber
    let n ← w.toNumber
    return m.equal n

/-- Loose equality. An object is compared with another type by its text. -/
def looseEqual (v w : Value) : Except Fault Bool :=
  if v.kind = w.kind then .ok (v.strictEqual w)
  else if v.isAbsent || w.isAbsent then .ok (v.isAbsent && w.isAbsent)
  else looseEqualPrimitive v.toPrimitive w.toPrimitive

/-- Whether the first value is less than the second; `none` if one of them is
    not a number. Texts are compared by their characters. -/
def compare (v w : Value) : Except Fault (Option Bool) :=
  let p := v.toPrimitive
  let q := w.toPrimitive
  match p.text?, q.text? with
  | some s, some t => .ok (some (decide (s < t)))
  | _, _ => do
    let m ← p.toNumber
    let n ← q.toNumber
    return if m.isNaN || n.isNaN then none else some (m.less n)

end TaintWeave.Value
