import TaintWeave.Proofs.Double.Rounding

/-!
# Decimals

A decimal denotes a rational, its digits scaled by a power of ten. Its magnitude is the logarithm of
that rational, and zeros at the end of its digits do not count.

The double nearest to a decimal is the one nearest to this rational. That large and small exponents
are decided by the magnitude alone changes nothing: there all decimals are infinite or zero.

* `Decimal.pow_magnitude_le`, `Decimal.lt_pow_magnitude`: the magnitude of a decimal.
* `Decimal.toRat_normalize`: a decimal without zeros at the end denotes the same.
* `Double.ofDecimal_eq_ofRat`, `Double.rounds_of_ofDecimal`: the double nearest to a decimal.
-/

namespace TaintWeave

namespace Decimal

/-- The rational that a decimal denotes. -/
def toRat (d : Decimal) : ℚ := d.digits * 10 ^ d.exponent

theorem toRat_eq_zero_iff {d : Decimal} : d.toRat = 0 ↔ d.digits = 0 := by
  have hpow : (10 : ℚ) ^ d.exponent ≠ 0 := (zpow_pos (by norm_num) _).ne'
  rw [toRat, mul_eq_zero, or_iff_left hpow, Nat.cast_eq_zero]

/-- A decimal as a ratio of natural numbers. -/
theorem toRat_eq_div (d : Decimal) :
    d.toRat = (d.digits * pow10 d.exponent.toNat : ℕ) / (pow10 (-d.exponent).toNat : ℕ) := by
  rw [toRat, Nat.cast_mul, mul_div_assoc, pow10_div_pow10]

/-! ## Magnitudes -/

/-- The magnitude counts the digits after the first one. -/
theorem magnitude_eq (d : Decimal) :
    d.magnitude = (digitCount d.digits - 1 : ℕ) + d.exponent := by
  have := digitCount_pos d.digits
  rw [magnitude]
  omega

/-- A decimal is at least the power of ten of its magnitude. -/
theorem pow_magnitude_le {d : Decimal} (h : 0 < d.digits) : (10 : ℚ) ^ d.magnitude ≤ d.toRat := by
  have hle : (10 : ℚ) ^ (digitCount d.digits - 1) ≤ d.digits := by
    exact_mod_cast pow_digitCount_le h
  rw [toRat, d.magnitude_eq, zpow_add₀ (by norm_num), zpow_natCast]
  gcongr

/-- A decimal is less than the next power of ten. -/
theorem lt_pow_magnitude (d : Decimal) : d.toRat < (10 : ℚ) ^ (d.magnitude + 1) := by
  have hlt : (d.digits : ℚ) < 10 ^ digitCount d.digits := by
    exact_mod_cast lt_pow_digitCount d.digits
  have hexponent : d.magnitude + 1 = (digitCount d.digits : ℕ) + d.exponent := by
    rw [magnitude]
    omega
  rw [toRat, hexponent, zpow_add₀ (by norm_num), zpow_natCast]
  gcongr

/-- The magnitude of a decimal is the exponent of the greatest power of ten up to it. -/
theorem le_magnitude_iff {d : Decimal} (h : 0 < d.digits) {k : ℤ} :
    k ≤ d.magnitude ↔ (10 : ℚ) ^ k ≤ d.toRat := by
  constructor
  · intro hk
    exact (zpow_le_zpow_right₀ (by norm_num) hk).trans (pow_magnitude_le h)
  · intro hk
    have := (zpow_lt_zpow_iff_right₀ (by norm_num)).1 (hk.trans_lt d.lt_pow_magnitude)
    omega

/-! ## Zeros at the end -/

/-- Dropping zeros at the end changes nothing. -/
theorem toRat_dropZeros (fuel : ℕ) (d : Decimal) : (d.dropZeros fuel).toRat = d.toRat := by
  induction fuel generalizing d with
  | zero => rfl
  | succ fuel ih =>
    rw [dropZeros]
    split
    · rename_i h
      have hdigits : ((d.digits / 10 : ℕ) : ℚ) * 10 = d.digits := by
        exact_mod_cast Nat.div_mul_cancel (Nat.dvd_of_mod_eq_zero h.1)
      rw [ih, toRat, toRat, ← hdigits, zpow_add₀ (by norm_num), zpow_one, mul_assoc,
        mul_comm (10 : ℚ)]
    · rfl

/-- A decimal without zeros at the end denotes the same. -/
theorem toRat_normalize (d : Decimal) : d.normalize.toRat = d.toRat := toRat_dropZeros _ d

end Decimal

namespace Double

/-- The double nearest to a rational is that of any ratio for its absolute value. -/
theorem ofRat_signed (negative : Bool) {q : ℚ} {n d : ℕ} (hd : 0 < d) (hq : q = n / d) :
    ofRat negative (if negative then -q else q) = ofRatio negative n d := by
  have hnonneg : 0 ≤ q := hq ▸ by positivity
  have hratio : (((if negative then -q else q).num.natAbs : ℕ) : ℚ) /
      (if negative then -q else q).den = n / d := by
    have habs : |if negative then -q else q| = q := by
      cases negative
      · exact abs_of_nonneg hnonneg
      · exact (abs_neg q).trans (abs_of_nonneg hnonneg)
    rw [Nat.cast_natAbs, ← Rat.num_abs_eq_abs_num, ← Rat.den_abs_eq_den, habs, Rat.num_div_den, hq]
  have hsign : (if (if negative then -q else q).num = 0 then negative
      else decide ((if negative then -q else q).num < 0)) = negative := by
    rcases hnonneg.eq_or_lt with hzero | hpos
    · simp [← hzero]
    · cases negative
      · simp [hpos.ne', hpos.le]
      · simp [hpos.ne', hpos]
  rw [ofRat, hsign, ofRatio_congr (Rat.pos _) hd hratio]

/-- The double nearest to a decimal is that nearest to the rational that it denotes. -/
theorem ofDecimal_eq_ofRat (negative : Bool) (d : Decimal) :
    ofDecimal negative d = ofRat negative (if negative then -d.toRat else d.toRat) := by
  have hpos : 0 < pow10 (-d.exponent).toNat := pow10_pos _
  rw [ofRat_signed negative hpos d.toRat_eq_div, ofDecimal]
  split
  · rename_i hzero
    rw [hzero, Nat.zero_mul, ofRatio, if_pos rfl]
  · rename_i hzero
    have hdigits : 0 < d.digits := Nat.pos_of_ne_zero hzero
    split
    · -- The decimal is at least `10 ^ 311`.
      rename_i hlarge
      refine (ofRatio_of_large hpos ?_).symm
      rw [← d.toRat_eq_div]
      have hpowers : (2 : ℚ) ^ ((1024 : ℕ) : ℤ) ≤ 10 ^ ((311 : ℕ) : ℤ) := by
        rw [zpow_natCast, zpow_natCast, ← pow2_cast, ← pow10_cast, Nat.cast_le]
        decide +kernel
      exact hpowers.trans ((Decimal.le_magnitude_iff hdigits).1 hlarge)
    · split
      · -- The decimal is less than `10 ^ (-330)`.
        rename_i hsmall
        refine (ofRatio_of_small (Nat.mul_pos hdigits (pow10_pos _)) hpos ?_).symm
        rw [← d.toRat_eq_div]
        refine d.lt_pow_magnitude.trans_le ?_
        refine (zpow_le_zpow_right₀ (by norm_num) (Int.add_one_le_of_lt hsmall)).trans ?_
        have hpowers : (2 : ℚ) ^ ((1075 : ℕ) : ℤ) ≤ 10 ^ ((330 : ℕ) : ℤ) := by
          rw [zpow_natCast, zpow_natCast, ← pow2_cast, ← pow10_cast, Nat.cast_le]
          decide +kernel
        rw [zpow_neg, zpow_neg, inv_le_inv₀ (by positivity) (by positivity)]
        exact hpowers
      · rfl

/-- A decimal that a double but zero is nearest to rounds to it. -/
theorem rounds_of_ofDecimal {negative : Bool} {d : Decimal} {m : ℕ} {e : ℤ} {hc : Canonical m e}
    (hm : 0 < m) (h : ofDecimal negative d = .finite negative m e hc) : Rounds d.toRat m e := by
  rw [ofDecimal_eq_ofRat, ofRat_signed negative (pow10_pos _) d.toRat_eq_div] at h
  have hdigits : 0 < d.digits := by
    refine Nat.pos_of_ne_zero fun hzero => ?_
    rw [hzero, Nat.zero_mul, ofRatio, if_pos rfl] at h
    injection h with _ hm'
    exact hm.ne hm'
  rw [d.toRat_eq_div]
  exact rounds_of_ofRatio (Nat.mul_pos hdigits (pow10_pos _)) (pow10_pos _) hm h

end Double

end TaintWeave
