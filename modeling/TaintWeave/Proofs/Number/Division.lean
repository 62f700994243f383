import TaintWeave.Proofs.Double.Decimal
import TaintWeave.Proofs.Number.Order

/-!
# Division of safe integers

The quotient of two safe integers is rounded to a double first, and taken for an integer if the
double is whole. That a double is whole does not mean that nothing was rounded: `2 ^ 53 + 1` over
`2` is given `2 ^ 52`. Up to the limit it does. A double with all its bits is `2 ^ 52` last places or
more, so that a quotient at half of a last place from it or nearer, and at a whole distance from it
in units of one over the divisor, would have a dividend beyond `2 ^ 53`.

* `Double.div_ofInt`: the quotient of two safe integers is rounded once.
* `Double.Rounds.eq_mul_of_whole`: no inexact quotient of a safe integer rounds to a whole number.
* `Number.divide_exact`: what the quotient of two safe integers is.
-/

namespace TaintWeave

namespace Double

variable {m n d : ℕ} {e : ℤ} {a b : ℤ}

/-! ## The rounded quotient -/

/-- A quotient of integers by its sign and absolute values. -/
theorem div_eq_signed (a b : ℤ) :
    (a : ℚ) / b = if decide (a < 0) != decide (b < 0) then -((a.natAbs : ℚ) / b.natAbs)
      else a.natAbs / b.natAbs := by
  rw [Nat.cast_natAbs, Nat.cast_natAbs]
  rcases lt_or_ge a 0 with ha | ha <;> rcases lt_or_ge b 0 with hb | hb
  · simp [ha, hb, abs_of_neg]
  · simp [ha, hb.not_gt, abs_of_neg, abs_of_nonneg hb, neg_div]
  · simp [ha.not_gt, hb, abs_of_neg, abs_of_nonneg ha, div_neg]
  · simp [ha.not_gt, hb.not_gt, abs_of_nonneg ha, abs_of_nonneg hb]

/-- The quotient of two safe integers is rounded once. -/
theorem div_ofInt (ha : a.natAbs ≤ pow2 53) (hb : b.natAbs ≤ pow2 53) (hne : b ≠ 0) :
    (ofInt a).div (ofInt b) =
      ofRatio (decide (a < 0) != decide (b < 0)) a.natAbs b.natAbs := by
  obtain ⟨m, e, hc, hdividend, hrat⟩ := exists_ofInt ha
  obtain ⟨m', e', hc', hdivisor, hrat'⟩ := exists_ofInt hb
  have hm' : m' ≠ 0 := by
    rintro rfl
    rw [toRat_finite] at hrat'
    exact hne (by simpa [eq_comm] using hrat')
  have hdiv : (ofInt a).div (ofInt b) = ofRat (decide (a < 0) != decide (b < 0)) (a / b) := by
    rw [hdividend, hdivisor, div, hrat, hrat']
    · simp [isInfinite, isZero, isNegative, hm']
    · simp
    · simp
  rw [hdiv, ← ofRat_signed _ (Int.natAbs_pos.2 hne) rfl, div_eq_signed]

/-- A whole double with all its bits does not have the least exponent. -/
theorem ne_least_of_whole {k : ℕ} (hm : 0 < m) (hc : Canonical m e) (hk : (m : ℚ) * 2 ^ e = k) :
    e ≠ -1074 := by
  rintro rfl
  have hpos : (0 : ℚ) < k := by rw [← hk]; positivity
  have hle : (1 : ℚ) ≤ k := by exact_mod_cast hpos
  have hsignificand : (m : ℚ) < 2 ^ 53 := by exact_mod_cast hc.1
  have hlt : (m : ℚ) * 2 ^ (-1074 : ℤ) < 1 :=
    calc (m : ℚ) * 2 ^ (-1074 : ℤ) < 2 ^ 53 * 2 ^ (-53 : ℤ) := by
          gcongr
          · norm_num
          · norm_num
      _ = 1 := by norm_num
  exact absurd (hk ▸ hlt) hle.not_gt

/-- If half of a gap holds a distance of one, the gap holds two. -/
theorem two_le_mul_gap {u s g : ℚ} (hu : 0 < u) (hs : s ≤ g / 2) (h : 1 ≤ u * s) : 2 ≤ u * g := by
  have hle : u * s ≤ u * (g / 2) := by gcongr
  linarith

/-- With a gap of two below a double that has all its bits, all that rounds to it is beyond the
    limit. -/
theorem limit_lt_of_gap {u : ℚ} (hfull : pow2 52 ≤ m) (he : e ≠ -1074)
    (h : 2 ≤ u * gapBelow m e) : 2 ^ 53 < u * (m - gapBelow m e / 2) := by
  rw [gapBelow] at h ⊢
  split at h
  · rename_i hpower
    rw [if_pos hpower, hpower.1, pow2_cast]
    linarith
  · rename_i hpower
    have hgt : pow2 52 + 1 ≤ m := by
      have hne : m ≠ pow2 52 := fun hm => hpower ⟨hm, he⟩
      omega
    have hgt' : (2 ^ 52 + 1 : ℚ) ≤ m := by exact_mod_cast hgt
    rw [if_neg hpower]
    calc (2 ^ 53 : ℚ) < 2 * (2 ^ 52 + 1 - 1 / 2) := by norm_num
      _ ≤ u * (m - 1 / 2) := by
          gcongr
          · linarith
          · linarith

/-- No quotient that is not whole rounds to a whole number if its dividend is safe. -/
theorem Rounds.eq_mul_of_whole {k : ℕ} (hn : n ≤ pow2 53) (hd : 0 < d) (hfull : pow2 52 ≤ m)
    (hc : Canonical m e) (h : Rounds (n / d) m e) (hk : (m : ℚ) * 2 ^ e = k) : n = d * k := by
  have hm : 0 < m := (pow2_pos 52).trans_le hfull
  have hn' : (n : ℚ) ≤ 2 ^ 53 := by exact_mod_cast hn
  -- The dividend, and the multiple of the divisor, in units of the last place.
  obtain ⟨u, hu⟩ : ∃ u : ℚ, u = d * 2 ^ e := ⟨_, rfl⟩
  obtain ⟨t, ht⟩ : ∃ t : ℚ, t = n / d / 2 ^ e := ⟨_, rfl⟩
  have hupos : 0 < u := by rw [hu]; positivity
  have hdividend : (n : ℚ) = u * t := by rw [hu, ht]; field_simp
  have hmultiple : (d * k : ℚ) = u * m := by rw [hu, ← hk]; ring
  obtain ⟨hbelow, habove, -⟩ := h
  rw [below_eq hm, ← ht] at hbelow
  rw [above_interval, ← ht] at habove
  rcases lt_trichotomy n (d * k) with hlt | heq | hgt
  · -- The quotient is in the gap below the whole double.
    have hlt' : (n : ℚ) + 1 ≤ d * k := by exact_mod_cast hlt
    have hgap : 2 ≤ u * gapBelow m e :=
      two_le_mul_gap (s := m - t) hupos (by linarith) (by linarith)
    have hlarge : u * (m - gapBelow m e / 2) ≤ u * t := by
      gcongr
      linarith
    have hlimit := limit_lt_of_gap hfull (ne_least_of_whole hm hc hk) hgap
    linarith
  · exact heq
  · -- It is in the gap above, and the multiple is at the limit already.
    have hgt' : (d * k : ℚ) + 1 ≤ n := by exact_mod_cast hgt
    have hgap : 2 ≤ u * 1 := two_le_mul_gap (s := t - m) hupos (by linarith) (by linarith)
    have hfull' : (2 ^ 52 : ℚ) ≤ m := by exact_mod_cast hfull
    have hlarge : 2 * 2 ^ 52 ≤ u * 1 * m := by gcongr
    linarith

/-- The bound is the best one: half of the next dividend does. -/
example : (ofRatio false (2 ^ 53 + 1) 2).toRat = 2 ^ 52 := by decide +kernel

/-! ## Whole quotients -/

/-- The quotient of safe integers, but of zero, is a double with all its bits that it rounds to. -/
theorem exists_div_ofInt (ha : a.natAbs ≤ pow2 53) (hb : b.natAbs ≤ pow2 53) (hzero : a ≠ 0)
    (hne : b ≠ 0) :
    ∃ m e, ∃ hc : Canonical m e, pow2 52 ≤ m ∧ Rounds (a.natAbs / b.natAbs) m e ∧
      (ofInt a).div (ofInt b) = finite (decide (a < 0) != decide (b < 0)) m e hc := by
  have hn : 0 < a.natAbs := Int.natAbs_pos.2 hzero
  have hd : 0 < b.natAbs := Int.natAbs_pos.2 hne
  have hd' : (0 : ℚ) < b.natAbs := by exact_mod_cast hd
  have hlower : (2 : ℚ) ^ (-1022 : ℤ) ≤ a.natAbs / b.natAbs := by
    rw [le_div_iff₀ hd']
    calc (2 : ℚ) ^ (-1022 : ℤ) * b.natAbs ≤ 2 ^ (-53 : ℤ) * 2 ^ 53 := by
          gcongr
          · norm_num
          · norm_num
          · exact_mod_cast hb
      _ = 1 := by norm_num
      _ ≤ a.natAbs := by exact_mod_cast hn
  have hupper : (a.natAbs : ℚ) / b.natAbs < 2 ^ (1023 : ℤ) := by
    rw [div_lt_iff₀ hd']
    calc (a.natAbs : ℚ) ≤ 2 ^ (53 : ℤ) * 1 := by
          rw [mul_one]
          exact_mod_cast ha
      _ < 2 ^ (1023 : ℤ) * 1 := by
          gcongr
          · norm_num
          · norm_num
      _ ≤ 2 ^ (1023 : ℤ) * b.natAbs := by
          gcongr
          exact_mod_cast hd
  obtain ⟨m, e, hc, hratio⟩ := exists_ofRatio (decide (a < 0) != decide (b < 0)) hd hlower hupper
  have hfull := full_of_ofRatio hd hlower hratio
  exact ⟨m, e, hc, hfull, rounds_of_ofRatio hn hd ((pow2_pos 52).trans_le hfull) hratio,
    (div_ofInt ha hb hne).trans hratio⟩

/-- A quotient that is an integer is not larger than the dividend. -/
theorem natAbs_le_of_eq_mul {k : ℤ} (hne : b ≠ 0) (h : a = b * k) : k.natAbs ≤ a.natAbs := by
  rw [h, Int.natAbs_mul]
  exact Nat.le_mul_of_pos_left _ (Int.natAbs_pos.2 hne)

/-- The double of an integer quotient lies where the quotient does. -/
theorem position?_div_ofInt {k : ℤ} (ha : a.natAbs ≤ pow2 53) (hb : b.natAbs ≤ pow2 53)
    (hne : b ≠ 0) (h : a = b * k) :
    ((ofInt a).div (ofInt b)).position? = some (Position.rat k) := by
  have hne' : (b : ℚ) ≠ 0 := by exact_mod_cast hne
  rcases eq_or_ne a 0 with rfl | hzero
  · obtain rfl : k = 0 := (mul_eq_zero.1 h.symm).resolve_left hne
    rw [div_ofInt ha hb hne]
    simp [ofRatio, zero, position?, toRat_finite]
  · obtain ⟨m, e, hc, hfull, hrounds, hdiv⟩ := exists_div_ofInt ha hb hzero hne
    have hquotient : (a.natAbs : ℚ) / b.natAbs = k.natAbs := by
      rw [h, Int.natAbs_mul, Nat.cast_mul, mul_div_cancel_left₀]
      exact_mod_cast Int.natAbs_ne_zero.2 hne
    have hle : k.natAbs ≤ pow2 53 := (natAbs_le_of_eq_mul hne h).trans ha
    have hsigned := div_eq_signed a b
    rw [hquotient, h, Int.cast_mul, mul_div_cancel_left₀ _ hne', ← h] at hsigned
    rw [hquotient] at hrounds
    rw [hdiv, position?, toRat_of_rounds_nat _ hle ((pow2_pos 52).trans_le hfull) hc hrounds,
      ← hsigned]

/-- The double of any other quotient of safe integers is nearest to it, and not whole. -/
theorem isNearest_div_ofInt (ha : a.natAbs ≤ pow2 53) (hb : b.natAbs ≤ pow2 53) (hne : b ≠ 0)
    (h : ¬b ∣ a) :
    IsNearest (a / b) ((ofInt a).div (ofInt b)) ∧
      ∀ k : ℤ, ((ofInt a).div (ofInt b)).toRat ≠ k := by
  have hzero : a ≠ 0 := fun hzero => h (hzero ▸ dvd_zero b)
  obtain ⟨m, e, hc, hfull, hrounds, hdiv⟩ := exists_div_ofInt ha hb hzero hne
  rw [hdiv]
  constructor
  · rw [div_eq_signed]
    exact hrounds.isNearest _ ((pow2_pos 52).trans_le hfull) hc
  · intro k hk
    have hwhole : (m : ℚ) * 2 ^ e = k.natAbs := by
      rw [← abs_toRat_finite _ hc, hk, Nat.cast_natAbs, Int.cast_abs]
    have hmul := hrounds.eq_mul_of_whole ha (Int.natAbs_pos.2 hne) hfull hc hwhole
    exact h (Int.natAbs_dvd_natAbs.1 ⟨_, hmul⟩)

/-- A double that is taken for an integer is whole. -/
theorem exists_toRat_of_isInteger {x : Double} (h : x.isInteger = true) :
    ∃ k : ℤ, x.toRat = k := by
  cases x with
  | nan | infinite _ => cases h
  | finite _ _ _ _ => exact ⟨_, (Rat.coe_int_num_of_den_eq_one (beq_iff_eq.1 h)).symm⟩

/-- Nothing over zero is whole. -/
theorem isInteger_div_zero (x : Double) (negative : Bool) :
    (x.div (zero negative)).isInteger = false := by
  cases x with
  | nan | infinite _ => rfl
  | finite _ m _ _ =>
    cases m with
    | zero | succ _ => rfl

end Double

/-! ## Division -/

namespace Number

open Value BinaryNative

variable {a b : ℤ}

/-- A safe integer over one that divides it is the quotient. -/
theorem div_int_of_dvd {k : ℤ} (ha : a.natAbs ≤ 2 ^ 53) (hb : b.natAbs ≤ 2 ^ 53) (hne : b ≠ 0)
    (h : a = b * k) : (int a).div (int b) = int k := by
  have hwhole := Double.position?_eq_int_iff.1 (Double.position?_div_ofInt ha hb hne h)
  rw [Bool.and_eq_true, beq_iff_eq] at hwhole
  rw [div]
  simp [hwhole]

/-- A safe integer over one that does not divide it is a double. -/
theorem div_int_of_not_dvd (ha : a.natAbs ≤ 2 ^ 53) (hb : b.natAbs ≤ 2 ^ 53) (hne : b ≠ 0)
    (h : ¬b ∣ a) : (int a).div (int b) = float ((Double.ofInt a).div (Double.ofInt b)) := by
  refine if_neg fun hinteger => ?_
  obtain ⟨k, hk⟩ := Double.exists_toRat_of_isInteger hinteger
  exact (Double.isNearest_div_ofInt ha hb hne h).2 k hk

/-- An operation on numbers that the language can hold takes them as they are. -/
theorem arithmetic_eq {x y : Number} (hx : x.Held) (hy : y.Held) (f : Number → Number → Number) :
    (number x).arithmetic f (number y) = .ok (number (f x y)) := by
  rw [arithmetic, hx.toNumber_eq, hy.toNumber_eq]
  rfl

/-- The quotient of two safe integers is an integer if the divisor divides the dividend, and then
    it is exact. Any other quotient is the double nearest to it, and this is not a whole number. -/
theorem divide_exact (ha : a.natAbs ≤ 2 ^ 53) (hb : b.natAbs ≤ 2 ^ 53) (hne : b ≠ 0) :
    ((∃ n, divide.apply (.int a) (.int b) = .ok (.int n)) ↔ b ∣ a) ∧
    (∀ k, a = b * k → divide.apply (.int a) (.int b) = .ok (.int k)) ∧
    (¬b ∣ a → ∃ x : Double, divide.apply (.int a) (.int b) = .ok (.number (.float x)) ∧
      x.IsNearest (a / b) ∧ ∀ k : ℤ, x.toRat ≠ k) := by
  have hquotient : divide.apply (.int a) (.int b) = .ok (.number ((int a).div (int b))) :=
    arithmetic_eq (x := int a) (y := int b) ha hb div
  have hdvd : ∀ k, a = b * k → divide.apply (.int a) (.int b) = .ok (.int k) := by
    intro k hk
    rw [hquotient, div_int_of_dvd ha hb hne hk, Value.int]
  have hnot : ¬b ∣ a → divide.apply (.int a) (.int b) =
      .ok (.number (.float ((Double.ofInt a).div (Double.ofInt b)))) := by
    intro h
    rw [hquotient, div_int_of_not_dvd ha hb hne h]
  refine ⟨⟨?_, fun ⟨k, hk⟩ => ⟨k, hdvd k hk⟩⟩, hdvd, fun h =>
    ⟨_, hnot h, Double.isNearest_div_ofInt ha hb hne h⟩⟩
  rintro ⟨n, hn⟩
  by_contra h
  rw [hnot h] at hn
  cases hn

/-- At the limit, a quotient that is halfway between two integers is a double; the first integer
    beyond would be rounded to a whole one. The quotient of the limit by itself is exact. -/
theorem divide_exact_limit :
    divide.apply (.int (-2 ^ 53)) (.int (2 ^ 53)) = .ok (.int (-1)) ∧
      (∃ x : Double, divide.apply (.int (2 ^ 53 - 1)) (.int 2) = .ok (.number (.float x)) ∧
        x.IsNearest (((2 ^ 53 - 1 : ℤ) : ℚ) / (2 : ℤ)) ∧ ∀ k : ℤ, x.toRat ≠ k) :=
  ⟨(divide_exact (a := -2 ^ 53) (b := 2 ^ 53) (by decide) (by decide) (by decide)).2.1 (-1)
      (by decide),
    (divide_exact (a := 2 ^ 53 - 1) (b := 2) (by decide) (by decide) (by decide)).2.2 (by decide)⟩

end Number

end TaintWeave
