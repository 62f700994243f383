/-!
# Powers

The powers of two and of ten, as natural numbers. They scale significands and
decimals, and bound words.

* `pow2`, `pow10`: the two families.
-/

namespace TaintWeave

/-- The power of two with an exponent. -/
def pow2 (k : Nat) : Nat := Nat.pow 2 k

/-- The power of ten with an exponent. -/
def pow10 (k : Nat) : Nat := Nat.pow 10 k

end TaintWeave
