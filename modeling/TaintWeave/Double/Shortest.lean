import TaintWeave.Double.Basic

/-!
# Shortest decimals

Every finite double but a zero has a shortest decimal: of the decimals that
round to it, those with the fewest digits, and of these the one nearest to it.
The decimals that round to `m * 2 ^ e` fill an interval that ends halfway to the
neighbours; the ends belong to it exactly when `m` is even.

* `Double.shortest`: the shortest decimal of a double.
* `Double.ofDecimal`: the double nearest to a decimal.
-/

namespace TaintWeave

/-- The number `digits * 10 ^ exponent`. -/
structure Decimal where
  /-- All digits, as one number. -/
  digits : Nat
  /-- The power of ten of the last digit. -/
  exponent : Int
  deriving DecidableEq, Repr

namespace Decimal

/-- The count of decimal digits of a number; zero has one. -/
def digitCount (n : Nat) : Nat := (Nat.toDigits 10 n).length

/-- The digits without the zeros at the end. -/
def dropZeros (fuel : Nat) (d : Decimal) : Decimal :=
  match fuel with
  | 0 => d
  | fuel + 1 =>
    if d.digits % 10 = 0 ∧ d.digits ≠ 0 then dropZeros fuel ⟨d.digits / 10, d.exponent + 1⟩
    else d

/-- The same number with no zero at the end of its digits. -/
def normalize (d : Decimal) : Decimal := d.dropZeros (digitCount d.digits)

/-- The power of ten of the first digit. -/
def magnitude (d : Decimal) : Int := d.exponent + digitCount d.digits - 1

end Decimal

/-- The floor of the decimal logarithm of `n / d`, for positive `n` and `d`. -/
def floorLog10 (n d : Nat) : Int :=
  let k := (Decimal.digitCount n : Int) - Decimal.digitCount d
  if d * pow10 k.toNat ≤ n * pow10 (-k).toNat then k else k - 1

namespace Double

/-- The double nearest to a decimal. Beyond `10 ^ 310` all are infinite and
    below `10 ^ (-330)` all are zero, so that a large exponent costs nothing. -/
def ofDecimal (negative : Bool) (d : Decimal) : Double :=
  if d.digits = 0 then zero negative
  else if d.magnitude > 310 then .infinite negative
  else if d.magnitude < -330 then zero negative
  else ofRatio negative (d.digits * pow10 d.exponent.toNat) (pow10 (-d.exponent).toNat)

/-- The decimals that round to `m * 2 ^ e`: in units of `2 ^ (e - 2)` the number
    is `4 * m`, and the interval reaches from `below` to `above`. -/
structure Interval where
  /-- The lower end. -/
  below : Nat
  /-- The upper end. -/
  above : Nat
  /-- Whether the ends belong to the interval. -/
  closed : Bool

/-- The interval of a canonical double. The lower neighbour of a power of two is
    at half the distance of the upper one. -/
def interval (m : Nat) (e : Int) : Interval where
  below := 4 * m - if m = pow2 52 ∧ e ≠ -1074 then 1 else 2
  above := 4 * m + 2
  closed := m % 2 == 0

/-- Whether `n / d` lies in the interval. -/
def Interval.contains (i : Interval) (n d : Nat) : Bool :=
  if i.closed then i.below * d ≤ n && n ≤ i.above * d
  else i.below * d < n && n < i.above * d

/-- The decimal with `count` digits that is nearest to `m * 2 ^ e` among those
    that round to it; of two at the same distance the one with the even last
    digit. Only the two neighbours on the grid of such decimals are in question. -/
def shortestOn (m : Nat) (e : Int) (magnitude : Int) (count : Nat) : Option Decimal :=
  -- In units of `2 ^ (e - 2)`, the grid has the step `n / d`.
  let exponent := magnitude - count + 1
  let n := pow10 exponent.toNat * pow2 (2 - e).toNat
  let d := pow10 (-exponent).toNat * pow2 (e - 2).toNat
  let nearest := nearestEven (4 * m * d) n
  let other := if nearest * n ≤ 4 * m * d then nearest + 1 else nearest - 1
  [nearest, other].findSome? fun digits =>
    if (interval m e).contains (digits * n) d then some (Decimal.normalize ⟨digits, exponent⟩)
    else none

/-- The shortest decimal of `m * 2 ^ e`; seventeen digits always suffice. -/
def shortest (m : Nat) (e : Int) : Decimal :=
  let magnitude := floorLog10 (m * pow2 e.toNat) (pow2 (-e).toNat)
  ((List.range' 1 17).findSome? (shortestOn m e magnitude)).getD ⟨m, 0⟩

end Double

end TaintWeave
