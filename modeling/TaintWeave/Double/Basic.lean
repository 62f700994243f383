import TaintWeave.Number.Power

/-!
# Double-precision numbers

The numbers of an instrumented program are binary64 numbers. A `Double` is one
as a value, not as a bit pattern: a NaN (there is one), a signed infinity, or a
sign, a significand and an exponent in the one form that denotes it
(`Double.Canonical`). So two doubles are equal exactly when they are the same
double, with `0` and `-0` apart.

* `Double.toRat`: the exact rational denoted by a finite double.
* `Double.ofRatio`: the double nearest to a ratio, a tie going to the even
  significand, an overflow to the infinity of its sign.
* `Double.add`, `Double.mul`, …: exact arithmetic on rationals, rounded once.
* `Double.equal` and `Double.less` compare as numbers: the zeros are equal, and
  a NaN is neither equal to nor less than anything.
-/

namespace TaintWeave

/-- The natural number nearest to `n / d`; an exact half goes to the even
    neighbour. -/
def nearestEven (n d : Nat) : Nat :=
  let q := n / d
  let r := n % d
  if 2 * r < d ∨ (2 * r = d ∧ q % 2 = 0) then q else q + 1

/-- The floor of the binary logarithm of `n / d`, for positive `n` and `d`. -/
def floorLog2 (n d : Nat) : Int :=
  let k := (n.log2 : Int) - d.log2
  if d * pow2 k.toNat ≤ n * pow2 (-k).toNat then k else k - 1

namespace Double

/-- The significands and exponents in use: at most 53 bits, and exactly 53
    unless the exponent is the least one. -/
def Canonical (significand : Nat) (exponent : Int) : Prop :=
  significand < pow2 53 ∧ -1074 ≤ exponent ∧ exponent ≤ 971 ∧
    (pow2 52 ≤ significand ∨ exponent = -1074)

instance (significand : Nat) (exponent : Int) : Decidable (Canonical significand exponent) :=
  inferInstanceAs (Decidable (_ ∧ _))

end Double

/-- A binary64 number. -/
inductive Double where
  /-- The result of an operation without one. -/
  | nan
  /-- An infinity. -/
  | infinite (negative : Bool)
  /-- The number `± significand * 2 ^ exponent`. -/
  | finite (negative : Bool) (significand : Nat) (exponent : Int)
      (canonical : Double.Canonical significand exponent)
  deriving DecidableEq

namespace Double

/-- A zero. -/
def zero (negative : Bool) : Double := .finite negative 0 (-1074) (by decide)

instance : Inhabited Double := ⟨zero false⟩

/-- The number `± significand * 2 ^ exponent`, or an infinity where the exponent
    is too large. -/
def ofParts (negative : Bool) (significand : Nat) (exponent : Int) : Double :=
  if h : Canonical significand exponent then .finite negative significand exponent h
  else .infinite negative

/-- The double nearest to `± n / d`. The exponent is the least that leaves at
    most 53 bits before the point. -/
def ofRatio (negative : Bool) (n d : Nat) : Double :=
  if n = 0 then zero negative
  else
    let exponent := max (floorLog2 n d - 52) (-1074)
    let significand := nearestEven (n * pow2 (-exponent).toNat) (d * pow2 exponent.toNat)
    -- Rounding up may have carried into a 54th bit.
    if significand = pow2 53 then ofParts negative (pow2 52) (exponent + 1)
    else ofParts negative significand exponent

/-- The double nearest to a rational; `negativeZero` is the sign of a zero. -/
def ofRat (negativeZero : Bool) (q : Rat) : Double :=
  ofRatio (if q.num = 0 then negativeZero else decide (q.num < 0)) q.num.natAbs q.den

/-- The double nearest to an integer. -/
def ofInt (n : Int) : Double := ofRatio (decide (n < 0)) n.natAbs 1

/-- `n * 2 ^ e`. -/
def scaled (n e : Int) : Rat := mkRat (n * pow2 e.toNat) (pow2 (-e).toNat)

/-- The rational denoted by a finite double; `0` for the others. -/
def toRat : Double → Rat
  | .nan | .infinite _ => 0
  | .finite negative m e _ => scaled (if negative then -(m : Int) else m) e

/-- Whether the sign is minus; of no meaning for a NaN. -/
def isNegative : Double → Bool
  | .nan => false
  | .infinite negative | .finite negative _ _ _ => negative

/-- Whether this is the NaN. -/
def isNaN : Double → Bool
  | .nan => true
  | _ => false

/-- Whether this is an infinity. -/
def isInfinite : Double → Bool
  | .infinite _ => true
  | _ => false

/-- Whether this is one of the zeros. -/
def isZero : Double → Bool
  | .finite _ m _ _ => m == 0
  | _ => false

/-- Whether this is a whole number. -/
def isInteger : Double → Bool
  | x@(.finite _ _ _ _) => x.toRat.den == 1
  | _ => false

/-- The integer part of a finite double: its value rounded toward zero. -/
def truncate (x : Double) : Int := x.toRat.num.tdiv x.toRat.den

/-! ## Arithmetic -/

/-- The number with the other sign. -/
def neg : Double → Double
  | .nan => .nan
  | .infinite negative => .infinite !negative
  | .finite negative m e h => .finite (!negative) m e h

/-- The sum. Opposite numbers add up to `0`, and only `-0 + -0` is `-0`. -/
def add : Double → Double → Double
  | .nan, _ | _, .nan => .nan
  | .infinite s, .infinite t => if s = t then .infinite s else .nan
  | .infinite s, _ | _, .infinite s => .infinite s
  | x, y => ofRat (x.isNegative && y.isNegative) (x.toRat + y.toRat)

/-- The difference. -/
def sub (x y : Double) : Double := x.add y.neg

/-- The product; zero times infinity is a NaN. -/
def mul : Double → Double → Double
  | .nan, _ | _, .nan => .nan
  | x, y =>
    let negative := x.isNegative != y.isNegative
    if x.isInfinite || y.isInfinite then
      if x.isZero || y.isZero then .nan else .infinite negative
    else ofRat negative (x.toRat * y.toRat)

/-- The quotient. A number over zero is an infinity; zero over zero and infinity
    over infinity are NaNs. -/
def div : Double → Double → Double
  | .nan, _ | _, .nan => .nan
  | x, y =>
    let negative := x.isNegative != y.isNegative
    if x.isInfinite then
      if y.isInfinite then .nan else .infinite negative
    else if y.isInfinite then zero negative
    else if y.isZero then
      if x.isZero then .nan else .infinite negative
    else ofRat negative (x.toRat / y.toRat)

/-- The remainder of the division rounded toward zero; it has the sign of the
    dividend. -/
def remainder : Double → Double → Double
  | .nan, _ | _, .nan => .nan
  | .infinite _, _ => .nan
  | x, .infinite _ => x
  | x, y =>
    if y.isZero then .nan
    else
      let q := x.toRat / y.toRat
      ofRat x.isNegative (x.toRat - y.toRat * (q.num.tdiv q.den : Int))

/-! ## Comparison -/

/-- Equality of numbers. -/
def equal : Double → Double → Bool
  | .nan, _ | _, .nan => false
  | .infinite s, .infinite t => s == t
  | .infinite _, _ | _, .infinite _ => false
  | x, y => x.toRat == y.toRat

/-- Order of numbers. -/
def less : Double → Double → Bool
  | .nan, _ | _, .nan => false
  | .infinite s, .infinite t => s && !t
  | .infinite s, _ => s
  | _, .infinite t => !t
  | x, y => decide (x.toRat < y.toRat)

end Double

end TaintWeave
