import TaintWeave.Double.Layout
import TaintWeave.Number.Word

/-!
# Numbers

A number of an instrumented program is held as an exact integer or as a double.
The two are different representations of the numbers of one language, in which
every number is a double: an integer beyond `2 ^ 53` counts as the double nearest
to it (`Number.ofInt`), and a whole result of integer arithmetic stays an
integer. There is no integer `-0`.

* `Number.add`, `Number.div`, …: arithmetic, on integers exact where the result
  is safe.
* `Number.equal`, `Number.less`: comparison of the exact values.
* `Number.toInt32`: reduction to a signed 32-bit word.
-/

namespace TaintWeave

/-- A number in one of its two representations. -/
inductive Number where
  /-- An exact integer. -/
  | int (n : Int)
  /-- A double. -/
  | float (x : Double)
  deriving DecidableEq

namespace Number

/-- The greatest integer up to which all integers are doubles. -/
def safeLimit : Nat := pow2 53

/-- An integer as a number of the language: a safe one is kept, and any other is
    the nearest double. -/
def ofInt (n : Int) : Number := if n.natAbs ≤ safeLimit then .int n else .float (.ofInt n)

/-- The number that the language can hold for a number. -/
def normalize : Number → Number
  | .int n => ofInt n
  | .float x => .float x

/-- The nearest double. -/
def toDouble : Number → Double
  | .int n => .ofInt n
  | .float x => x

/-- Whether the number is a NaN. -/
def isNaN : Number → Bool
  | .int _ => false
  | .float x => x.isNaN

/-- Whether the number is a zero. -/
def isZero : Number → Bool
  | .int n => n == 0
  | .float x => x.isZero

/-- Whether the sign is minus. -/
def isNegative : Number → Bool
  | .int n => n < 0
  | .float x => x.isNegative

/-- Equality of the exact values; a NaN equals nothing. -/
def equal : Number → Number → Bool
  | .int m, .int n => m == n
  | .float x, .float y => x.equal y
  | .int n, .float x | .float x, .int n => x.isInteger && x.truncate == n

/-- Order of numbers; nothing is ordered with a NaN. -/
def less : Number → Number → Bool
  | .int m, .int n => m < n
  | x, y => x.toDouble.less y.toDouble

/-! ## Arithmetic -/

/-- The sum. -/
def add : Number → Number → Number
  | .int m, .int n => ofInt (m + n)
  | x, y => .float (x.toDouble.add y.toDouble)

/-- The difference. -/
def sub : Number → Number → Number
  | .int m, .int n => ofInt (m - n)
  | x, y => .float (x.toDouble.sub y.toDouble)

/-- The product. -/
def mul : Number → Number → Number
  | .int m, .int n => ofInt (m * n)
  | x, y => .float (x.toDouble.mul y.toDouble)

/-- The quotient. That of two integers is an integer where the rounded quotient
    is whole, and a double otherwise. -/
def div : Number → Number → Number
  | .int m, .int n =>
    let quotient := (Double.ofInt m).div (Double.ofInt n)
    if quotient.isInteger then .int quotient.truncate else .float quotient
  | x, y => .float (x.toDouble.div y.toDouble)

/-- The remainder, with the sign of the dividend. -/
def remainder : Number → Number → Number
  | .int m, .int n => if n = 0 then .float .nan else .int (m.tmod n)
  | x, .float y =>
    -- A remainder by an infinity leaves the dividend in its representation.
    if y.isInfinite && !x.isNaN && !x.toDouble.isInfinite then x
    else .float (x.toDouble.remainder y)
  | x, y => .float (x.toDouble.remainder y.toDouble)

/-- The signed 32-bit word of the integer part; zero for the infinities and NaN. -/
def toInt32 : Number → Int
  | .int n => Word.ofInt n
  | .float x => Word.ofInt x.truncate

/-! ## Text -/

/-- The text of a number in a layout. -/
def write (l : Layout) : Number → String
  | .int n => toString n
  | .float x => l.write x

end Number

end TaintWeave
