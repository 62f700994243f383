import TaintWeave.Double.Basic

/-!
# Interchange format

A double as 64 bits: a sign bit, eleven bits of biased exponent and 52 bits of
trailing significand. Every pattern of a NaN is read as the one NaN.

* `Double.ofBits` and `Double.toBits`: the two directions.
-/

namespace TaintWeave.Double

/-- The double with these bits; bits from the 65th on are ignored. -/
def ofBits (bits : Nat) : Double :=
  let negative := bits.testBit 63
  let biased : Nat := bits / pow2 52 % pow2 11
  let fraction : Nat := bits % pow2 52
  if biased = 2047 then
    if fraction = 0 then .infinite negative else .nan
  else if biased = 0 then ofParts negative fraction (-1074)
  else ofParts negative (pow2 52 + fraction) (biased - 1075)

/-- The bits of a double; those of a NaN have one fraction bit, the first. -/
def toBits : Double → Nat
  | .nan => 2047 * pow2 52 + pow2 51
  | .infinite negative => negative.toNat * pow2 63 + 2047 * pow2 52
  | .finite negative m e _ =>
    negative.toNat * pow2 63 +
      if m < pow2 52 then m else (e + 1075).toNat * pow2 52 + (m - pow2 52)

end TaintWeave.Double
