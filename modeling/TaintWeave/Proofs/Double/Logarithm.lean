import Mathlib.Data.Int.Log
import TaintWeave.Double.Shortest
import TaintWeave.Proofs.Double.Exact

/-!
# Logarithms

The binary and the decimal logarithm of a ratio are found from the lengths of its two parts: the
difference of these, or one less, which a comparison of products decides. Both are the exponent of
the greatest power that is not greater than the ratio.

* `log_div`: the rule, for any base.
* `floorLog2_eq`, `floorLog10_eq`: the two logarithms.
-/

namespace TaintWeave

/-- The logarithm of a rational is the exponent of the greatest power that is not greater. -/
theorem log_eq {b : ℕ} (hb : 1 < b) {q : ℚ} (hq : 0 < q) {k : ℤ} (hle : (b : ℚ) ^ k ≤ q)
    (hlt : q < (b : ℚ) ^ (k + 1)) : Int.log b q = k := by
  have h₁ := (Int.zpow_le_iff_le_log hb hq).1 hle
  have h₂ := (Int.lt_zpow_iff_log_lt hb hq).1 hlt
  omega

/-- A power and a ratio are compared by products of natural numbers. -/
theorem zpow_le_div_iff (b n : ℕ) {d : ℕ} (hb : 0 < b) (hd : 0 < d) (k : ℤ) :
    (b : ℚ) ^ k ≤ (n : ℚ) / d ↔ d * b ^ k.toNat ≤ n * b ^ (-k).toNat := by
  have hd' : (0 : ℚ) < d := by exact_mod_cast hd
  have hb' : (0 : ℚ) < (b : ℚ) ^ (-k).toNat := by positivity
  rw [zpow_eq_div, div_le_div_iff₀ hb' hd', ← Nat.cast_le (α := ℚ), mul_comm (b ^ k.toNat : ℚ)]
  push_cast
  rfl

/-- The logarithm of a ratio is the difference of those of its parts, or one less. -/
theorem log_div {b n d i j : ℕ} (hb : 1 < b) (hi : b ^ i ≤ n) (hi' : n < b ^ (i + 1))
    (hj : b ^ j ≤ d) (hj' : d < b ^ (j + 1)) :
    Int.log b ((n : ℚ) / d) =
      if d * b ^ ((i : ℤ) - j).toNat ≤ n * b ^ (-((i : ℤ) - j)).toNat then (i : ℤ) - j
      else (i : ℤ) - j - 1 := by
  have hb' : (0 : ℚ) < b := by exact_mod_cast Nat.zero_lt_of_lt hb
  have hn : (0 : ℚ) < n := by exact_mod_cast (Nat.pow_pos (Nat.zero_lt_of_lt hb)).trans_le hi
  have hd : (0 : ℚ) < d := by exact_mod_cast (Nat.pow_pos (Nat.zero_lt_of_lt hb)).trans_le hj
  have hq : 0 < (n : ℚ) / d := div_pos hn hd
  have hlower : (b : ℚ) ^ ((i : ℤ) - j - 1) ≤ n / d := by
    have hpow : (b : ℚ) ^ ((i : ℤ) - j - 1) = b ^ i / b ^ (j + 1) := by
      rw [sub_sub, zpow_sub₀ hb'.ne']
      exact_mod_cast rfl
    rw [hpow]
    exact div_le_div₀ hn.le (by exact_mod_cast hi) hd (by exact_mod_cast hj'.le)
  have hupper : (n : ℚ) / d < b ^ ((i : ℤ) - j + 1) := by
    have hpow : (b : ℚ) ^ ((i : ℤ) - j + 1) = b ^ (i + 1) / b ^ j := by
      rw [sub_add_eq_add_sub, zpow_sub₀ hb'.ne']
      exact_mod_cast rfl
    rw [hpow]
    exact div_lt_div₀ (by exact_mod_cast hi') (by exact_mod_cast hj) (by positivity) (by positivity)
  have htest := zpow_le_div_iff b n (Nat.zero_lt_of_lt hb) (by exact_mod_cast hd) ((i : ℤ) - j)
  split
  · rename_i h
    exact log_eq hb hq (htest.2 h) hupper
  · rename_i h
    refine log_eq hb hq hlower ?_
    rw [sub_add_cancel]
    exact not_le.1 (htest.not.2 h)

/-- The binary logarithm of a ratio. -/
theorem floorLog2_eq {n d : ℕ} (hn : 0 < n) (hd : 0 < d) :
    floorLog2 n d = Int.log 2 ((n : ℚ) / d) :=
  (log_div one_lt_two (Nat.log2_self_le hn.ne') Nat.lt_log2_self (Nat.log2_self_le hd.ne')
    Nat.lt_log2_self).symm

namespace Decimal

theorem digitCount_pos (n : ℕ) : 0 < digitCount n := Nat.length_toDigits_pos

/-- A number has as many digits as there are powers of ten up to it. -/
theorem digitCount_le_iff {n k : ℕ} (hk : 0 < k) : digitCount n ≤ k ↔ n < 10 ^ k :=
  Nat.length_toDigits_le_iff (by decide) hk

theorem lt_pow_digitCount (n : ℕ) : n < 10 ^ digitCount n :=
  (digitCount_le_iff (digitCount_pos n)).1 le_rfl

/-- The first digit of a number is not zero, but for zero itself. -/
theorem pow_digitCount_le {n : ℕ} (hn : 0 < n) : 10 ^ (digitCount n - 1) ≤ n := by
  rcases Nat.lt_or_ge 1 (digitCount n) with h | h
  · have hmore : ¬digitCount n ≤ digitCount n - 1 := by omega
    exact Nat.not_lt.1 ((digitCount_le_iff (by omega)).not.1 hmore)
  · rw [Nat.sub_eq_zero_of_le h]
    exact hn

end Decimal

/-- The decimal logarithm of a ratio. -/
theorem floorLog10_eq {n d : ℕ} (hn : 0 < n) (hd : 0 < d) :
    floorLog10 n d = Int.log 10 ((n : ℚ) / d) := by
  have hcount := Decimal.digitCount_pos n
  have hcount' := Decimal.digitCount_pos d
  have hlt := Decimal.lt_pow_digitCount n
  have hlt' := Decimal.lt_pow_digitCount d
  rw [← Nat.sub_add_cancel hcount] at hlt
  rw [← Nat.sub_add_cancel hcount'] at hlt'
  have hlog := log_div (by decide) (Decimal.pow_digitCount_le hn) hlt
    (Decimal.pow_digitCount_le hd) hlt'
  have hdifference : ((Decimal.digitCount n - 1 : ℕ) : ℤ) - (Decimal.digitCount d - 1 : ℕ) =
      (Decimal.digitCount n : ℤ) - Decimal.digitCount d := by omega
  rw [hdifference] at hlog
  exact hlog.symm

end TaintWeave
