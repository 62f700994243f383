import Mathlib.Algebra.Order.Field.Power
import Mathlib.Data.Rat.Floor
import Mathlib.Tactic.FieldSimp
import TaintWeave.Double.Basic

/-!
# Exact values

A finite double is a rational, its significand scaled by a power of two. The powers are natural
numbers on either side of a fraction, so that all computation is exact; here they become powers with
an integer exponent, for which there are laws.

* `Double.scaled_eq`: a scaled integer is a product with a power of two.
* `Double.truncate_eq`: truncation rounds toward zero.
-/

namespace TaintWeave

/-- A power with an integer exponent is a ratio of two with natural ones. -/
theorem zpow_eq_div (b : ℚ) (e : ℤ) : b ^ e = b ^ e.toNat / b ^ (-e).toNat := by
  obtain ⟨n, rfl | rfl⟩ := e.eq_nat_or_neg
  · simp
  · simp [zpow_neg]

theorem pow2_cast (k : ℕ) : (pow2 k : ℚ) = 2 ^ k := Nat.cast_pow 2 k

theorem pow2_pos (k : ℕ) : 0 < pow2 k := Nat.two_pow_pos k

theorem pow10_cast (k : ℕ) : (pow10 k : ℚ) = 10 ^ k := Nat.cast_pow 10 k

theorem pow10_pos (k : ℕ) : 0 < pow10 k := Nat.pow_pos (by decide)

/-- The two powers of two on either side of a fraction. -/
theorem pow2_div_pow2 (e : ℤ) : (pow2 e.toNat : ℚ) / pow2 (-e).toNat = 2 ^ e := by
  rw [pow2_cast, pow2_cast, zpow_eq_div]

/-- The two powers of ten on either side of a fraction. -/
theorem pow10_div_pow10 (e : ℤ) : (pow10 e.toNat : ℚ) / pow10 (-e).toNat = 10 ^ e := by
  rw [pow10_cast, pow10_cast, zpow_eq_div]

namespace Double

/-- A scaled integer is its product with a power of two. -/
theorem scaled_eq (n e : ℤ) : scaled n e = n * 2 ^ e := by
  rw [scaled, Rat.mkRat_eq_div, Int.cast_mul, Int.cast_natCast, mul_div_assoc, pow2_div_pow2]

/-- The value of a finite double. -/
theorem toRat_finite {negative : Bool} {m : ℕ} {e : ℤ} {h : Canonical m e} :
    (finite negative m e h).toRat = (if negative then -(m : ℚ) else m) * 2 ^ e := by
  rw [toRat, scaled_eq]
  split <;> simp

/-- The integer part of a double: its value is rounded toward zero. -/
theorem truncate_eq (x : Double) :
    x.truncate = if 0 ≤ x.toRat then ⌊x.toRat⌋ else ⌈x.toRat⌉ := by
  rw [truncate, Rat.floor_def', Rat.ceil_def']
  split
  · rename_i h
    exact Int.tdiv_eq_ediv_of_nonneg (Rat.num_nonneg.2 h)
  · rename_i h
    -- Below zero, the quotient of the opposite number is the one rounded down.
    have hneg : 0 ≤ -x.toRat.num := by
      have := Rat.num_nonneg.not.2 h
      omega
    rw [← Int.tdiv_eq_ediv_of_nonneg hneg, Int.neg_tdiv, neg_neg]

end Double

end TaintWeave
