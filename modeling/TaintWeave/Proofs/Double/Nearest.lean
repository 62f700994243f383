import TaintWeave.Proofs.Double.Rounding

/-!
# Nearest doubles

Rounding is defined by the interval around a double, and computed from the last place of a rational.
Here it is a matter of distances: what rounds to a double is as near to it as to any other one, and
if two are equally near, then the significand of the one that it is given is even
(`Double.IsNearest`).

Between a double and the next one there is a whole last place, and between it and the one before as
much, or half of it if the double is a power of two. The interval reaches half of the way to both.

* `Double.succ_le`, `Double.le_pred`: the gaps on both sides of a double.
* `Double.Rounds.isNearest`: what rounds to a double has no nearer one.
* `Double.exists_ofRatio`: a ratio that is neither too large nor too small is given a double with
  all its bits.
-/

namespace TaintWeave

namespace Double

variable {m m' : ℕ} {e e' : ℤ} {q : ℚ}

/-! ## Gaps -/

/-- The distance of a double to the one before, in units of the last place. -/
def gapBelow (m : ℕ) (e : ℤ) : ℚ := if m = pow2 52 ∧ e ≠ -1074 then 1 / 2 else 1

theorem gapBelow_le_one (m : ℕ) (e : ℤ) : gapBelow m e ≤ 1 := by
  rw [gapBelow]
  split <;> norm_num

/-- The interval ends halfway to the double before. -/
theorem below_eq (hm : 0 < m) (e : ℤ) : ((interval m e).below : ℚ) = 4 * m - 2 * gapBelow m e := by
  rw [below_interval hm, gapBelow]
  split <;> norm_num

/-- A greater double is greater by the last place at least. -/
theorem succ_le (hc : Canonical m e) (hc' : Canonical m' e') (h : (m : ℚ) * 2 ^ e < m' * 2 ^ e') :
    (m + 1 : ℚ) * 2 ^ e ≤ m' * 2 ^ e' := by
  have hunit : (0 : ℚ) < 2 ^ e := zpow_pos two_pos e
  rcases Int.lt_or_le e' e with he | he
  · -- With a smaller exponent the second double would not be greater.
    have hfull : (2 ^ 52 : ℚ) ≤ m := by exact_mod_cast hc.full hc'.2.1 he
    have hsignificand : (m' : ℚ) ≤ 2 ^ 53 := by exact_mod_cast hc'.1.le
    have hle : (m' : ℚ) * 2 ^ e' ≤ m * 2 ^ e :=
      calc (m' : ℚ) * 2 ^ e' ≤ 2 ^ 53 * 2 ^ (e - 1) := by
            gcongr
            · norm_num
            · omega
        _ = 2 ^ 52 * 2 ^ e := by rw [zpow_sub_one₀ two_ne_zero]; ring
        _ ≤ m * 2 ^ e := by gcongr
    exact absurd h hle.not_gt
  · -- In units of the last place of the first double the second is a natural number.
    obtain ⟨k, rfl⟩ : ∃ k : ℕ, e' = e + k := ⟨(e' - e).toNat, by omega⟩
    have hwhole : (m' : ℚ) * 2 ^ (e + k) = (m' * 2 ^ k : ℕ) * 2 ^ e := by
      rw [zpow_add₀ two_ne_zero, zpow_natCast]
      push_cast
      ring
    rw [hwhole] at h ⊢
    have hlt : m < m' * 2 ^ k := by exact_mod_cast lt_of_mul_lt_mul_right h hunit.le
    gcongr
    exact_mod_cast hlt

/-- A smaller double is smaller by the gap at least. -/
theorem le_pred (hc : Canonical m e) (hc' : Canonical m' e') (h : (m' : ℚ) * 2 ^ e' < m * 2 ^ e) :
    (m' : ℚ) * 2 ^ e' ≤ (m - gapBelow m e) * 2 ^ e := by
  rcases Int.lt_or_le e' e with he | he
  · -- The greatest double with a smaller exponent is half of a last place below a power of two.
    have hfull : pow2 52 ≤ m := hc.full hc'.2.1 he
    have hsignificand : (m' : ℚ) + 1 ≤ 2 ^ 53 := by exact_mod_cast hc'.1
    have hgap : (2 ^ 52 - 1 / 2 : ℚ) ≤ m - gapBelow m e := by
      rw [gapBelow]
      split
      · rename_i hpower
        rw [hpower.1, pow2_cast]
      · rename_i hpower
        have hne : m ≠ pow2 52 := fun hm => hpower ⟨hm, (hc'.2.1.trans_lt he).ne'⟩
        have hgt : pow2 52 + 1 ≤ m := by omega
        have hgt' : (2 ^ 52 + 1 : ℚ) ≤ m := by exact_mod_cast hgt
        linarith
    calc (m' : ℚ) * 2 ^ e' ≤ (2 ^ 53 - 1) * 2 ^ (e - 1) := by
          gcongr
          · linarith
          · norm_num
          · omega
      _ = (2 ^ 52 - 1 / 2) * 2 ^ e := by rw [zpow_sub_one₀ two_ne_zero]; ring
      _ ≤ (m - gapBelow m e) * 2 ^ e := by gcongr
  · have hsucc := succ_le hc' hc h
    have hunit : (2 : ℚ) ^ e ≤ 2 ^ e' := zpow_le_zpow_right₀ one_le_two he
    have hgap := gapBelow_le_one m e
    calc (m' : ℚ) * 2 ^ e' ≤ (m - 1) * 2 ^ e := by linarith
      _ ≤ (m - gapBelow m e) * 2 ^ e := by gcongr

/-! ## Distances -/

/-- Whether a double is nearest to a rational: no finite double is nearer, and if another one is as
    near, then the significand is even. -/
def IsNearest (q : ℚ) : Double → Prop
  | .nan | .infinite _ => False
  | .finite negative m e hc =>
    ∀ (negative' : Bool) (m' : ℕ) (e' : ℤ) (hc' : Canonical m' e'),
      let x := (finite negative m e hc).toRat
      let y := (finite negative' m' e' hc').toRat
      |q - x| ≤ |q - y| ∧ (|q - x| = |q - y| → y ≠ x → m % 2 = 0)

/-- What is at most half of the way to the neighbours of a number is nearest to it, and another one
    is as near only from the middle. -/
theorem abs_sub_le_of_gaps {t x y g : ℚ} (hbelow : x - g / 2 ≤ t) (habove : t ≤ x + 1 / 2)
    (hleft : y < x → y ≤ x - g) (hright : x < y → x + 1 ≤ y) :
    |t - x| ≤ |t - y| ∧ (|t - x| = |t - y| → y ≠ x → t = x - g / 2 ∨ t = x + 1 / 2) := by
  rcases lt_trichotomy y x with hlt | rfl | hgt
  · have hy := hleft hlt
    have hle : |t - x| ≤ t - y := abs_le.2 ⟨by linarith, by linarith⟩
    have hdistance : |t - y| = t - y := abs_of_nonneg ((abs_nonneg _).trans hle)
    rw [hdistance]
    refine ⟨hle, fun heq _ => .inl ?_⟩
    rcases abs_choice (t - x) with h | h
    · linarith
    · linarith
  · exact ⟨le_rfl, fun _ hne => absurd rfl hne⟩
  · have hy := hright hgt
    have hle : |t - x| ≤ y - t := abs_le.2 ⟨by linarith, by linarith⟩
    have hdistance : |t - y| = y - t := by
      rw [abs_sub_comm]
      exact abs_of_nonneg ((abs_nonneg _).trans hle)
    rw [hdistance]
    refine ⟨hle, fun heq _ => .inr ?_⟩
    rcases abs_choice (t - x) with h | h
    · linarith
    · linarith

/-- What rounds to a positive double is nearest to it, whatever the sign of the other one. -/
theorem Rounds.abs_sub_le (hm : 0 < m) (hc : Canonical m e) (h : Rounds q m e) (negative : Bool)
    (hc' : Canonical m' e') {y : ℚ} (hy : y = (finite negative m' e' hc').toRat) :
    |q - m * 2 ^ e| ≤ |q - y| ∧ (|q - m * 2 ^ e| = |q - y| → y ≠ m * 2 ^ e → m % 2 = 0) := by
  have hunit : (0 : ℚ) < 2 ^ e := zpow_pos two_pos e
  have hnonneg : (0 : ℚ) ≤ m' * 2 ^ e' := by positivity
  have hone : (1 : ℚ) ≤ m := by exact_mod_cast hm
  have hgap := gapBelow_le_one m e
  rw [toRat_finite] at hy
  -- In units of the last place; a negative double is below all gaps.
  have hright : (m : ℚ) < y / 2 ^ e → m + 1 ≤ y / 2 ^ e := by
    rw [lt_div_iff₀ hunit, le_div_iff₀ hunit]
    intro hlt
    cases negative
    · rw [hy] at hlt ⊢
      exact succ_le hc hc' hlt
    · rw [if_pos rfl] at hy
      linarith [mul_nonneg (zero_le_one.trans hone) hunit.le]
  have hleft : y / 2 ^ e < m → y / 2 ^ e ≤ m - gapBelow m e := by
    rw [div_lt_iff₀ hunit, div_le_iff₀ hunit]
    intro hlt
    cases negative
    · rw [hy] at hlt ⊢
      exact le_pred hc hc' hlt
    · rw [if_pos rfl] at hy
      linarith [mul_nonneg (sub_nonneg.2 (hgap.trans hone)) hunit.le]
  obtain ⟨hbelow, habove, hopen⟩ := h
  rw [below_eq hm] at hbelow hopen
  rw [above_interval] at habove hopen
  obtain ⟨hle, htie⟩ := abs_sub_le_of_gaps (t := q / 2 ^ e) (by linarith) (by linarith) hleft hright
  have hscale : ∀ z : ℚ, |q - z| = |q / 2 ^ e - z / 2 ^ e| * 2 ^ e := by
    intro z
    rw [← sub_div, abs_div, abs_of_pos hunit, div_mul_cancel₀ _ hunit.ne']
  rw [hscale, hscale y, mul_div_cancel_right₀ _ hunit.ne', mul_le_mul_iff_left₀ hunit,
    mul_left_inj' hunit.ne']
  refine ⟨hle, fun heq hne => ?_⟩
  by_contra hodd
  -- At an odd significand the ends do not belong to the interval.
  have hstrict := hopen (by simp [interval, hodd])
  have hne' : y / 2 ^ e ≠ m := fun h => hne ((div_eq_iff hunit.ne').1 h)
  rcases htie heq hne' with h | h
  · linarith
  · linarith

/-- What rounds to a double has no nearer one, with either sign. -/
theorem Rounds.isNearest (negative : Bool) (hm : 0 < m) (hc : Canonical m e) (h : Rounds q m e) :
    IsNearest (if negative then -q else q) (finite negative m e hc) := by
  intro negative' m' e' hc' x y
  cases negative
  · have hx : x = m * 2 ^ e := toRat_finite
    rw [hx]
    exact h.abs_sub_le hm hc negative' hc' rfl
  · -- The opposite double has the same distance to the opposite rational.
    have hx : x = -(m * 2 ^ e) := toRat_finite.trans (neg_mul _ _)
    have hy : -y = (finite (!negative') m' e' hc').toRat := by
      have hy : y = _ := toRat_finite
      rw [hy, toRat_finite]
      cases negative' <;> simp
    have hdistance : ∀ z : ℚ, |-q - z| = |q - -z| := by
      intro z
      rw [← abs_neg]
      congr 1
      ring
    have hnear := h.abs_sub_le hm hc (!negative') hc' hy
    rw [if_pos rfl, hdistance, hdistance y, hx, neg_neg]
    refine ⟨hnear.1, fun heq hne => hnear.2 heq fun h => hne ?_⟩
    rw [← h, neg_neg]

/-! ## Ratios with all their bits -/

/-- From `2 ^ (-1022)` on, a rational has 53 bits before its last place. -/
theorem significand_bounds {k : ℕ} (hq : (2 : ℚ) ^ (-1022 : ℤ) ≤ q)
    (hk : Nearest (q / 2 ^ lastPlace q) k) : pow2 52 ≤ k ∧ k ≤ pow2 53 := by
  have hpos : 0 < q := (zpow_pos two_pos _).trans_le hq
  obtain ⟨hupper, hfull⟩ := lastPlace_bounds hpos
  have hlower : 2 ^ 52 ≤ q / 2 ^ lastPlace q := by
    by_cases hplace : lastPlace q = -1074
    · rw [hplace, le_div_iff₀ (zpow_pos two_pos _), ← zpow_natCast, ← zpow_add₀ two_ne_zero]
      exact hq
    · exact hfull hplace
  obtain ⟨hbelow, habove⟩ := abs_le.1 hk.1
  constructor
  · have hlt : (pow2 52 : ℚ) < (k + 1 : ℕ) := by
      rw [pow2_cast, Nat.cast_succ]
      linarith
    exact Nat.lt_succ_iff.1 (Nat.cast_lt.1 hlt)
  · have hlt : (k : ℚ) < (pow2 53 + 1 : ℕ) := by
      rw [Nat.cast_succ, pow2_cast]
      linarith
    exact Nat.lt_succ_iff.1 (Nat.cast_lt.1 hlt)

/-- The parts of the double nearest to a ratio that is not too small: a significand with all its
    bits, in the last place of the ratio or, after a carry, in the one before. -/
theorem exists_parts (negative : Bool) {n d : ℕ} (hd : 0 < d)
    (hlower : (2 : ℚ) ^ (-1022 : ℤ) ≤ n / d) :
    ∃ k e, pow2 52 ≤ k ∧ k < pow2 53 ∧ lastPlace (n / d) ≤ e ∧ e ≤ lastPlace (n / d) + 1 ∧
      ofRatio negative n d = ofParts negative k e := by
  have hq : (0 : ℚ) < n / d := (zpow_pos two_pos _).trans_le hlower
  have hn : 0 < n := Nat.pos_of_ne_zero fun hn => by simp [hn] at hq
  obtain ⟨k, hk⟩ : ∃ k, Nearest ((n : ℚ) / d / 2 ^ lastPlace (n / d)) k :=
    exists_nearest (by positivity)
  obtain ⟨hfull, hle⟩ := significand_bounds hlower hk
  rw [ofRatio_of_nearest hn hd hk]
  split
  · exact ⟨pow2 52, _, le_rfl, by decide, by omega, le_rfl, rfl⟩
  · rename_i hne
    exact ⟨k, _, hfull, hle.lt_of_ne hne, le_rfl, by omega, rfl⟩

/-- A ratio that is neither too large nor too small is given a finite double. -/
theorem exists_ofRatio (negative : Bool) {n d : ℕ} (hd : 0 < d)
    (hlower : (2 : ℚ) ^ (-1022 : ℤ) ≤ n / d) (hupper : (n : ℚ) / d < 2 ^ (1023 : ℤ)) :
    ∃ m e, ∃ hc : Canonical m e, ofRatio negative n d = finite negative m e hc := by
  obtain ⟨k, e, hfull, hlt, hplace, hplace', hparts⟩ := exists_parts negative hd hlower
  have hbounds : -1074 ≤ lastPlace ((n : ℚ) / d) ∧ lastPlace ((n : ℚ) / d) ≤ 970 := by
    have := (Int.lt_zpow_iff_log_lt one_lt_two ((zpow_pos two_pos _).trans_le hlower)).1 hupper
    rw [lastPlace]
    omega
  have hc : Canonical k e := ⟨hlt, by omega, by omega, .inl hfull⟩
  exact ⟨k, e, hc, hparts.trans (dif_pos hc)⟩

/-- A finite double that a ratio which is not too small is given has all its bits. -/
theorem full_of_ofRatio {negative negative' : Bool} {n d : ℕ} {hc : Canonical m e} (hd : 0 < d)
    (hlower : (2 : ℚ) ^ (-1022 : ℤ) ≤ n / d)
    (h : ofRatio negative n d = finite negative' m e hc) : pow2 52 ≤ m := by
  obtain ⟨k, e, hfull, -, -, -, hparts⟩ := exists_parts negative hd hlower
  obtain ⟨rfl, -⟩ := eq_of_ofParts (hparts.symm.trans h)
  exact hfull

end Double

end TaintWeave
