import TaintWeave.Proofs.Double.Nearest

/-!
# Whole doubles

The double nearest to an integer. Every integer up to `2 ^ 53` is a double itself, so that nothing
is lost when it is taken as one; of the integers beyond, those that are doubles are kept, and no
other comes back below the limit. From halfway between the greatest double and the next power of two
on an integer has no double near it.

* `Double.toRat_of_rounds_nat`: a double that a safe integer rounds to is that integer.
* `Double.exists_ofInt`: the double nearest to a safe integer.
* `Double.ofInt_of_toRat`: the double nearest to an integer that is one.
* `Double.le_abs_toRat_ofInt`: the double nearest to an integer beyond the limit.
* `Double.ofInt_isInfinite_iff`: the integers that are beyond all doubles.
-/

namespace TaintWeave

namespace Double

/-- Every positive integer up to `2 ^ 53` is a double. -/
theorem exists_canonical {n : ℕ} (hn : 0 < n) (hle : n ≤ pow2 53) :
    ∃ m e, 0 < m ∧ Canonical m e ∧ (n : ℚ) = m * 2 ^ e := by
  rcases hle.eq_or_lt with rfl | hlt
  · refine ⟨pow2 52, 1, by decide, by decide, ?_⟩
    rw [pow2_cast, pow2_cast]
    norm_num
  · have hlog : n.log2 < 53 := (Nat.log2_lt hn.ne').2 hlt
    have hlower := Nat.log2_self_le hn.ne'
    have hupper : n < 2 ^ (n.log2 + 1) := Nat.lt_log2_self
    have hfull : 2 ^ n.log2 * 2 ^ (52 - n.log2) = 2 ^ 52 := by
      rw [← pow_add]
      congr 1
      omega
    refine ⟨n * 2 ^ (52 - n.log2), -((52 - n.log2 : ℕ) : ℤ), Nat.mul_pos hn (by positivity), ?_, ?_⟩
    · refine ⟨?_, by omega, by omega, .inl ?_⟩
      · calc n * 2 ^ (52 - n.log2) < 2 ^ (n.log2 + 1) * 2 ^ (52 - n.log2) := by gcongr
          _ = 2 ^ 53 := by rw [pow_succ, mul_right_comm, hfull, ← pow_succ]
      · calc pow2 52 = 2 ^ n.log2 * 2 ^ (52 - n.log2) := hfull.symm
          _ ≤ n * 2 ^ (52 - n.log2) := by gcongr
    · rw [zpow_neg, zpow_natCast]
      push_cast
      field_simp

variable {m : ℕ} {e : ℤ}

/-- A double that a safe integer rounds to is that integer. -/
theorem toRat_of_rounds_nat {n : ℕ} (negative : Bool) (hn : n ≤ pow2 53) (hm : 0 < m)
    (hc : Canonical m e) (h : Rounds n m e) :
    (finite negative m e hc).toRat = if negative then -(n : ℚ) else n := by
  have hpos : 0 < n := by exact_mod_cast h.pos hm
  obtain ⟨m', e', hm', hc', hvalue⟩ := exists_canonical hpos hn
  obtain ⟨rfl, rfl⟩ := h.unique hm hm' hc hc' (hvalue ▸ rounds_self hm' e')
  rw [toRat_finite, hvalue]
  split <;> ring

/-- No ratio is rounded to a NaN. -/
theorem ofRatio_isNaN (negative : Bool) (n d : ℕ) : (ofRatio negative n d).isNaN = false := by
  have hparts : ∀ (k : ℕ) (e : ℤ), (ofParts negative k e).isNaN = false := by
    intro k e
    rw [ofParts]
    split <;> rfl
  rw [ofRatio]
  split
  · rfl
  · dsimp only
    split <;> exact hparts _ _

/-- A ratio is rounded to a double of its sign. -/
theorem ofRatio_isNegative (negative : Bool) (n d : ℕ) :
    (ofRatio negative n d).isNegative = negative := by
  have hparts : ∀ (k : ℕ) (e : ℤ), (ofParts negative k e).isNegative = negative := by
    intro k e
    rw [ofParts]
    split <;> rfl
  rw [ofRatio]
  split
  · rfl
  · dsimp only
    split <;> exact hparts _ _

/-! ## The double nearest to an integer -/

/-- The absolute value of a finite double. -/
theorem abs_toRat_finite (negative : Bool) (hc : Canonical m e) :
    |(finite negative m e hc).toRat| = m * 2 ^ e := by
  have hnonneg : (0 : ℚ) ≤ m * 2 ^ e := by positivity
  rw [toRat_finite]
  split
  · rw [neg_mul, abs_neg, abs_of_nonneg hnonneg]
  · exact abs_of_nonneg hnonneg

/-- An integer that is a double is given this double. -/
theorem ofInt_of_toRat {negative : Bool} {n : ℤ} (hm : 0 < m) (hc : Canonical m e)
    (h : (finite negative m e hc).toRat = n) : ofInt n = finite negative m e hc := by
  have hpos : (0 : ℚ) < m * 2 ^ e := by positivity
  have habs : ((n.natAbs : ℕ) : ℚ) = m * 2 ^ e := by
    rw [← abs_toRat_finite negative hc, h, Nat.cast_natAbs, Int.cast_abs]
  have hn : 0 < n.natAbs := by exact_mod_cast habs ▸ hpos
  have hsign : decide (n < 0) = negative := by
    rw [toRat_finite] at h
    cases negative
    · have hnonneg : (0 : ℚ) < n := h ▸ hpos
      simpa using (Int.cast_pos.1 hnonneg).le
    · have hneg : (n : ℚ) < 0 := by
        rw [← h]
        simpa using hpos
      simpa using hneg
  rw [ofInt, hsign]
  refine ofRatio_of_rounds hn one_pos hm hc ?_
  rw [Nat.cast_one, div_one, habs]
  exact rounds_self hm e

/-- A safe integer is a double. -/
theorem exists_ofInt {n : ℤ} (hn : n.natAbs ≤ pow2 53) :
    ∃ m e, ∃ hc : Canonical m e, ofInt n = finite (decide (n < 0)) m e hc ∧
      (finite (decide (n < 0)) m e hc).toRat = n := by
  rcases eq_or_ne n 0 with rfl | hne
  · exact ⟨0, -1074, by decide, rfl, by rw [toRat_finite]; simp⟩
  · obtain ⟨m, e, hm, hc, hvalue⟩ := exists_canonical (Int.natAbs_pos.2 hne) hn
    have hrat : (finite (decide (n < 0)) m e hc).toRat = n := by
      rw [Nat.cast_natAbs, Int.cast_abs] at hvalue
      rw [toRat_finite]
      rcases lt_or_gt_of_ne hne with hneg | hpos
      · have hneg' : (n : ℚ) < 0 := by exact_mod_cast hneg
        rw [abs_of_neg hneg'] at hvalue
        simp [hneg, ← hvalue]
      · have hpos' : (0 : ℚ) < n := by exact_mod_cast hpos
        rw [abs_of_pos hpos'] at hvalue
        simp [hpos.le, ← hvalue]
    exact ⟨m, e, hc, ofInt_of_toRat hm hc hrat, hrat⟩

/-- The double nearest to an integer that is not below the limit is not below it either. -/
theorem le_abs_toRat_ofInt {negative : Bool} {n : ℤ} {hc : Canonical m e}
    (hn : pow2 53 ≤ n.natAbs) (h : ofInt n = finite negative m e hc) :
    2 ^ 53 ≤ |(finite negative m e hc).toRat| := by
  have hlimit : (2 : ℚ) ^ 53 = (pow2 52 : ℕ) * 2 ^ (1 : ℤ) := by
    rw [pow2_cast]
    norm_num
  have hle : (2 : ℚ) ^ 53 ≤ n.natAbs / (1 : ℕ) := by
    rw [Nat.cast_one, div_one, ← pow2_cast, Nat.cast_le]
    exact hn
  have hlower : (2 : ℚ) ^ (-1022 : ℤ) ≤ n.natAbs / (1 : ℕ) :=
    (zpow_le_zpow_right₀ one_le_two (by decide : (-1022 : ℤ) ≤ 53)).trans hle
  have hm : 0 < m := (pow2_pos 52).trans_le (full_of_ofRatio one_pos hlower h)
  have hsign : decide (n < 0) = negative :=
    (ofRatio_isNegative _ _ _).symm.trans (congrArg isNegative h)
  rw [ofInt, hsign] at h
  have hrounds := rounds_of_ofRatio ((pow2_pos 53).trans_le hn) one_pos hm h
  rw [abs_toRat_finite, hlimit]
  exact (rounds_self (pow2_pos 52) 1).mono (pow2_pos 52) hm (by decide) hc hrounds (hlimit ▸ hle)

/-! ## Integers beyond all doubles -/

/-- A ratio that is not too small is beyond all doubles from halfway between the greatest double and
    the next power of two on. Halfway it goes to the power, for the significand of the greatest
    double is odd. -/
theorem ofRatio_isInfinite_iff (negative : Bool) {n d : ℕ} (hd : 0 < d)
    (hlower : (2 : ℚ) ^ (-1022 : ℤ) ≤ n / d) :
    (ofRatio negative n d).isInfinite = true ↔ (2 : ℚ) ^ 1024 - 2 ^ 970 ≤ n / d := by
  have hq : (0 : ℚ) < n / d := (zpow_pos two_pos _).trans_le hlower
  have hn : 0 < n := Nat.pos_of_ne_zero fun hn => by simp [hn] at hq
  -- The powers in units of half of the last place of the greatest double.
  obtain ⟨unit, hunit⟩ : ∃ unit : ℚ, 2 ^ 970 = unit := ⟨_, rfl⟩
  have hpos : 0 < unit := hunit ▸ pow_pos two_pos 970
  have hpow : ∀ k : ℕ, (2 : ℚ) ^ (970 + k) = 2 ^ k * unit := fun k => by
    rw [← hunit, pow_add, mul_comm]
  have hlimit : (2 : ℚ) ^ 1024 - 2 ^ 970 = 2 ^ 54 * unit - unit := by rw [← hpow 54, hunit]
  rw [hlimit]
  rcases lt_or_ge ((n : ℚ) / d) (2 ^ (1023 : ℤ)) with hsmall | hmiddle
  · obtain ⟨m, e, hc, hfinite⟩ := exists_ofRatio negative hd hlower hsmall
    rw [hfinite]
    refine iff_of_false Bool.false_ne_true (not_le.2 ((hsmall.trans_eq (hpow 53)).trans ?_))
    linarith only [hpos]
  rcases lt_or_ge ((n : ℚ) / d) (2 ^ (1024 : ℤ)) with hupper | hlarge
  · have hplace : lastPlace ((n : ℚ) / d) = 971 := by
      have hlog := (Int.zpow_le_iff_le_log one_lt_two hq).1 hmiddle
      have hlog' := (Int.lt_zpow_iff_log_lt one_lt_two hq).1 hupper
      rw [lastPlace]
      omega
    obtain ⟨k, hk⟩ : ∃ k, Nearest ((n : ℚ) / d / 2 ^ lastPlace (n / d)) k :=
      exists_nearest (by positivity)
    obtain ⟨hfull, hle⟩ := significand_bounds hlower hk
    have hplaces : (2 : ℚ) ^ 54 * unit - unit ≤ n / d ↔
        ((pow2 53 : ℕ) : ℚ) - 1 / 2 ≤ n / d / 2 ^ lastPlace ((n : ℚ) / d) := by
      have hplace' : (2 : ℚ) ^ (971 : ℤ) = 2 * unit := (hpow 1).trans (by rw [pow_one])
      have hpos' : 0 < 2 * unit := mul_pos two_pos hpos
      rw [hplace, hplace', le_div_iff₀ hpos', pow2_cast]
      refine iff_of_eq (congrArg (· ≤ (n : ℚ) / d) ?_)
      ring
    rw [ofRatio_of_nearest hn hd hk, hplaces, ← hk.eq_iff_of_even hle (by decide), hplace]
    -- Only a carry into the next power of two leaves the range of exponents.
    split
    · rename_i hcarry
      exact iff_of_true rfl hcarry
    · rename_i hne
      rw [ofParts, dif_pos ⟨hle.lt_of_ne hne, by decide, by decide, .inl hfull⟩]
      exact iff_of_false Bool.false_ne_true hne
  · rw [ofRatio_of_large hd hlarge]
    refine iff_of_true rfl (le_trans ?_ ((hpow 54).symm.trans_le hlarge))
    linarith only [hpos]

/-- An integer is beyond all doubles from halfway between the greatest of them and the next power of
    two on. -/
theorem ofInt_isInfinite_iff {n : ℤ} :
    (ofInt n).isInfinite = true ↔ 2 ^ 1024 - 2 ^ 970 ≤ |n| := by
  rcases eq_or_ne n 0 with rfl | hne
  · have hlt : (2 : ℤ) ^ 970 < 2 ^ 1024 := pow_lt_pow_right₀ one_lt_two (by decide)
    refine iff_of_false (by decide) ?_
    rw [abs_zero, not_le]
    exact sub_pos.2 hlt
  · have hlower : (2 : ℚ) ^ (-1022 : ℤ) ≤ n.natAbs / (1 : ℕ) := by
      have hone : (1 : ℚ) ≤ n.natAbs := by exact_mod_cast Int.natAbs_pos.2 hne
      rw [Nat.cast_one, div_one]
      exact (zpow_le_one_of_nonpos₀ one_le_two (by decide)).trans hone
    rw [ofInt, ofRatio_isInfinite_iff _ one_pos hlower, Nat.cast_one, div_one, Nat.cast_natAbs]
    exact_mod_cast Iff.rfl

end Double

end TaintWeave
