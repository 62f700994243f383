import TaintWeave.Value.Conversion

/-!
# Native operators

What the operators of the language do to values that carry no taint. A `Native`
is one of these operations or one of the conversions they are made of, known by
a name.

* `Native.ofName?`: the native of a name.
* `Native.apply`: its result. The only effect is the failure of a conversion, or
  of the evaluator behind `eval`.
-/

namespace TaintWeave

/-- What runs dynamic code. -/
abbrev Evaluator := String → Except Fault Value

/-- The natives with one operand. -/
inductive UnaryNative where
  | bitwiseNot | logicalNot | typeof | increment | decrement | eval
  | toBoolean | toNumber | toText | toInt32 | toUInt32 | toPrimitive | toDouble
  deriving DecidableEq, Repr

/-- The natives with two operands. -/
inductive BinaryNative where
  | add | subtract | multiply | divide | modulus
  | bitwiseAnd | bitwiseOr | bitwiseXor | shiftLeft | shiftRight
  | logicalAnd | logicalOr | greater | lesser | greaterEqual | lesserEqual
  | doubleEqual | tripleEqual | doubleInequal | tripleInequal
  | strictEquals | looseEquals
  deriving DecidableEq, Repr

/-- A native operation. -/
inductive Native where
  /-- An operation with one operand. -/
  | unary (op : UnaryNative)
  /-- An operation with two operands. -/
  | binary (op : BinaryNative)
  deriving DecidableEq, Repr

/-! ## Operations -/

namespace Value

/-- An integer as a value. -/
def int (n : Int) : Value := number (.int n)

/-- The name of a type, as the language reports it. -/
def typeName : Value → String
  | undefined => "undefined"
  | boolean _ => "boolean"
  | number _ => "number"
  | text _ | symbol _ => "string"
  | function _ _ => "function"
  | _ => "object"

/-- The sum of two numbers, or the two texts one after the other if one of the
    operands has no other primitive form. -/
def add (v w : Value) : Except Fault Value := do
  let p := v.toPrimitive
  let q := w.toPrimitive
  if p.text?.isSome || q.text?.isSome then return .text (p.toText ++ q.toText)
  let m ← p.toNumber
  let n ← q.toNumber
  return .number (m.add n)

/-- An operation on the numbers of two values. -/
def arithmetic (f : Number → Number → Number) (v w : Value) : Except Fault Value := do
  let m ← v.toNumber
  let n ← w.toNumber
  return .number (f m n)

/-- An operation on the signed words of two values. -/
def wordwise (f : Int → Int → Int) (v w : Value) : Except Fault Value := do
  let m ← v.toInt32
  let n ← w.toInt32
  return .int (f m n)

/-- Whether the comparison of two values has a given outcome. -/
def compares (outcome : Bool) (v w : Value) : Except Fault Value := do
  let answer ← v.compare w
  return .boolean (answer == some outcome)

end Value

namespace UnaryNative

/-- The result on an operand. -/
def apply (evaluator : Evaluator) (v : Value) : UnaryNative → Except Fault Value
  | bitwiseNot => do return .int (Word.complement (← v.toInt32))
  | logicalNot => do return .boolean !(← v.toBoolean)
  | typeof => .ok (.text v.typeName)
  | increment => do return .number ((← v.toNumber).add (.int 1))
  | decrement => do return .number ((← v.toNumber).sub (.int 1))
  | eval =>
    match v.text? with
    | some code => evaluator code
    | none => .ok v
  | toBoolean => do return .boolean (← v.toBoolean)
  | toNumber => do return .number (← v.toNumber)
  | toText =>
    match v with
    | .symbol s => .ok (.symbol s)
    | v => .ok (.text v.toText)
  | toInt32 => do return .int (← v.toInt32)
  | toUInt32 => do return .int (← v.toUInt32)
  | toPrimitive => .ok v.toPrimitive
  | toDouble =>
    match v with
    | .number n => .ok (.number n.normalize)
    | v => .ok v

/-- The name of a native. -/
def name : UnaryNative → String
  | bitwiseNot => "js_bitwise_not"
  | logicalNot => "js_logical_not"
  | typeof => "js_typeof"
  | increment => "js_increment"
  | decrement => "js_decrement"
  | eval => "js_eval"
  | toBoolean => "to_boolean"
  | toNumber => "to_number"
  | toText => "to_string"
  | toInt32 => "to_int32"
  | toUInt32 => "to_uint32"
  | toPrimitive => "to_primitive"
  | toDouble => "to_double"

/-- All natives with one operand. -/
def all : List UnaryNative :=
  [bitwiseNot, logicalNot, typeof, increment, decrement, eval,
   toBoolean, toNumber, toText, toInt32, toUInt32, toPrimitive, toDouble]

end UnaryNative

namespace BinaryNative

/-- The result on two operands. -/
def apply (v w : Value) : BinaryNative → Except Fault Value
  | add => v.add w
  | subtract => v.arithmetic Number.sub w
  | multiply => v.arithmetic Number.mul w
  | divide => v.arithmetic Number.div w
  | modulus => v.arithmetic Number.remainder w
  | bitwiseAnd => v.wordwise (Word.bitwise (· &&& ·)) w
  | bitwiseOr => v.wordwise (Word.bitwise (· ||| ·)) w
  | bitwiseXor => v.wordwise (Word.bitwise (· ^^^ ·)) w
  | shiftLeft => v.wordwise Word.shiftLeft w
  | shiftRight => v.wordwise Word.shiftRight w
  | logicalAnd => do return if ← v.toBoolean then w else v
  | logicalOr => do return if ← v.toBoolean then v else w
  | greater => w.compares true v
  | lesser => v.compares true w
  | greaterEqual => v.compares false w
  | lesserEqual => w.compares false v
  | doubleEqual | looseEquals => do return .boolean (← v.looseEqual w)
  | tripleEqual | strictEquals => .ok (.boolean (v.strictEqual w))
  | doubleInequal => do return .boolean !(← v.looseEqual w)
  | tripleInequal => .ok (.boolean !(v.strictEqual w))

/-- The name of a native. -/
def name : BinaryNative → String
  | add => "js_add"
  | subtract => "js_subtract"
  | multiply => "js_multiply"
  | divide => "js_divide"
  | modulus => "js_modulus"
  | bitwiseAnd => "js_bitwise_and"
  | bitwiseOr => "js_bitwise_or"
  | bitwiseXor => "js_bitwise_xor"
  | shiftLeft => "js_shift_left"
  | shiftRight => "js_shift_right"
  | logicalAnd => "js_logical_and"
  | logicalOr => "js_logical_or"
  | greater => "js_greater"
  | lesser => "js_lesser"
  | greaterEqual => "js_greater_equal"
  | lesserEqual => "js_lesser_equal"
  | doubleEqual => "js_double_equal"
  | tripleEqual => "js_triple_equal"
  | doubleInequal => "js_double_inequal"
  | tripleInequal => "js_triple_inequal"
  | strictEquals => "strict_equals"
  | looseEquals => "loose_equals"

/-- All natives with two operands. -/
def all : List BinaryNative :=
  [add, subtract, multiply, divide, modulus, bitwiseAnd, bitwiseOr, bitwiseXor,
   shiftLeft, shiftRight, logicalAnd, logicalOr, greater, lesser, greaterEqual,
   lesserEqual, doubleEqual, tripleEqual, doubleInequal, tripleInequal,
   strictEquals, looseEquals]

end BinaryNative

namespace Native

/-- All natives. -/
def all : List Native := UnaryNative.all.map unary ++ BinaryNative.all.map binary

/-- The name of a native. -/
def name : Native → String
  | unary op => op.name
  | binary op => op.name

/-- The native with a name. -/
def ofName? (s : String) : Option Native := all.find? fun native => native.name == s

/-- The number of operands. -/
def arity : Native → Nat
  | unary _ => 1
  | binary _ => 2

/-- The result on a list of operands; any other number of them than the arity is
    a fault. -/
def apply (evaluator : Evaluator) : Native → List Value → Except Fault Value
  | unary op, [v] => op.apply evaluator v
  | binary op, [v, w] => op.apply v w
  | _, _ => .error .wrongType

end Native

end TaintWeave
