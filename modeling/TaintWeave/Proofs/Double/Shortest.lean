import TaintWeave.Proofs.Double.Decimal

/-!
# Shortest decimals

The shortest decimal of a double rounds to it, so that nothing is lost when it is written, and no
decimal with fewer digits does. The search looks at two points of a grid for each count of digits,
the neighbours of the double, and takes none that does not round.

If any point of a grid rounds to the double, then one of the neighbours does, since what rounds to
it has no gaps. Every decimal that rounds to the double gives such a point: on the grid for its
count of digits it is a point itself, or there is a power of ten between it and the double. And with
seventeen digits the grid is so fine that the point nearest to the double rounds to it, also below a
power of two, where the interval is half as wide.

The shortest decimals are in the order of the doubles. So the magnitude of a double, as it is
written, is decided by comparing the double with those nearest to the powers of ten.

* `Double.rounds_shortest`: the shortest decimal rounds to the double.
* `Double.digitCount_shortest_le`: it has the fewest digits of all that do.
* `Double.ofDecimal_shortest`: the double nearest to it is the double itself.
* `Double.le_magnitude_shortest_iff`: the magnitude of the shortest decimal.
-/

namespace TaintWeave

namespace Decimal

/-! ## Digits without zeros at the end -/

theorem digits_dropZeros_le (fuel : ℕ) (d : Decimal) : (d.dropZeros fuel).digits ≤ d.digits := by
  induction fuel generalizing d with
  | zero => exact le_rfl
  | succ fuel ih =>
    rw [dropZeros]
    split
    · exact (ih _).trans (Nat.div_le_self _ _)
    · exact le_rfl

/-- Of a power of ten only the one is left. -/
theorem digits_dropZeros_pow {fuel k : ℕ} (h : k ≤ fuel) (e : ℤ) :
    (dropZeros fuel ⟨10 ^ k, e⟩).digits = 1 := by
  induction k generalizing fuel e with
  | zero => cases fuel <;> rfl
  | succ k ih =>
    obtain ⟨fuel, rfl⟩ : ∃ f, fuel = f + 1 := ⟨fuel - 1, by omega⟩
    have hdiv : 10 ^ (k + 1) / 10 = 10 ^ k := by
      rw [pow_succ, Nat.mul_div_cancel _ (by decide)]
    have hmod : 10 ^ (k + 1) % 10 = 0 := by
      rw [pow_succ, Nat.mul_mod_left]
    rw [dropZeros, if_pos ⟨hmod, (Nat.pow_pos (by decide)).ne'⟩]
    dsimp only
    rw [hdiv]
    exact ih (Nat.le_of_succ_le_succ h) _

/-- Without zeros at the end, digits up to a power of ten are as many as there are before it. -/
theorem digitCount_normalize_le {d : Decimal} {k : ℕ} (hk : 0 < k) (h : d.digits ≤ 10 ^ k) :
    digitCount d.normalize.digits ≤ k := by
  obtain ⟨digits, exponent⟩ := d
  rcases h.eq_or_lt with rfl | hlt
  · have hfuel : k ≤ digitCount (10 ^ k) := by
      have := (digitCount_le_iff hk).not.2 (lt_irrefl (10 ^ k))
      omega
    rw [normalize, digits_dropZeros_pow hfuel]
    exact hk
  · exact (digitCount_le_iff hk).2 ((digits_dropZeros_le _ _).trans_lt hlt)

end Decimal

namespace Double

variable {m : ℕ} {e : ℤ}

/-! ## The grid -/

/-- The step of the grid, in units of a quarter of the last place. -/
theorem step_eq (exponent e : ℤ) :
    ((pow10 exponent.toNat * pow2 (2 - e).toNat : ℕ) : ℚ) /
      (pow10 (-exponent).toNat * pow2 (e - 2).toNat : ℕ) = 4 * (10 ^ exponent / 2 ^ e) := by
  have hquarter : (2 : ℚ) ^ (2 - e) = 4 / 2 ^ e := by
    rw [zpow_sub₀ two_ne_zero]
    norm_num
  rw [Nat.cast_mul, Nat.cast_mul, mul_div_mul_comm, pow10_div_pow10, ← neg_sub 2 e, pow2_div_pow2,
    hquarter]
  ring

/-- A point of the grid is in the interval if its decimal rounds to the double. -/
theorem contains_iff_rounds (m digits : ℕ) (exponent e : ℤ) :
    (interval m e).contains (digits * (pow10 exponent.toNat * pow2 (2 - e).toNat))
      (pow10 (-exponent).toNat * pow2 (e - 2).toNat) = true ↔
      Rounds (digits * 10 ^ exponent) m e := by
  rw [Interval.contains_iff (Nat.mul_pos (pow10_pos _) (pow2_pos _)), Nat.cast_mul, mul_div_assoc,
    step_eq, Rounds]
  ring_nf

/-- Whether a point of the grid is not above the double is decided with natural numbers. -/
theorem grid_le_iff (m k : ℕ) (exponent e : ℤ) :
    k * (pow10 exponent.toNat * pow2 (2 - e).toNat) ≤
      4 * m * (pow10 (-exponent).toNat * pow2 (e - 2).toNat) ↔
      (k : ℚ) * 10 ^ exponent ≤ m * 2 ^ e := by
  have hunit : (0 : ℚ) < 2 ^ e := zpow_pos two_pos e
  have hpos : (0 : ℚ) < (pow10 (-exponent).toNat * pow2 (e - 2).toNat : ℕ) := by
    exact_mod_cast Nat.mul_pos (pow10_pos _) (pow2_pos _)
  rw [← Nat.cast_le (α := ℚ), Nat.cast_mul, Nat.cast_mul (4 * m), ← div_le_iff₀ hpos, mul_div_assoc,
    step_eq, ← div_le_iff₀ hunit]
  push_cast
  constructor <;> intro h <;> linarith [mul_div_assoc (k : ℚ) (10 ^ exponent) (2 ^ e)]

/-- The double in units of the grid. -/
theorem grid_ratio (m : ℕ) (exponent e : ℤ) :
    ((4 * m * (pow10 (-exponent).toNat * pow2 (e - 2).toNat) : ℕ) : ℚ) /
      (pow10 exponent.toNat * pow2 (2 - e).toNat : ℕ) = m * 2 ^ e / 10 ^ exponent := by
  rw [Nat.cast_mul, ← div_div_eq_mul_div, step_eq]
  push_cast
  field_simp

/-- The points of a grid on both sides of a double, the nearest one first. -/
structure Neighbours (m : ℕ) (e exponent : ℤ) (k j : ℕ) : Prop where
  nearest : Nearest (m * 2 ^ e / 10 ^ exponent) k
  other : (k : ℚ) * 10 ^ exponent ≤ m * 2 ^ e ∧ j = k + 1 ∨
    (m : ℚ) * 2 ^ e < k * 10 ^ exponent ∧ j = k - 1

/-- The search on a grid finds one of the neighbours of the double if it rounds to it, and nothing
    else. -/
theorem exists_neighbours (m : ℕ) (e magnitude : ℤ) (count : ℕ) :
    ∃ k j, Neighbours m e (magnitude - count + 1) k j ∧
      (∀ i ∈ [k, j], Rounds (i * 10 ^ (magnitude - count + 1)) m e →
        (shortestOn m e magnitude count).isSome) ∧
      ∀ d, shortestOn m e magnitude count = some d →
        ∃ i ∈ [k, j], d = Decimal.normalize ⟨i, magnitude - count + 1⟩ ∧ Rounds d.toRat m e := by
  generalize hexponent : magnitude - count + 1 = exponent
  have hnearest := nearest_nearestEven
    (4 * m * (pow10 (-exponent).toNat * pow2 (e - 2).toNat))
    (Nat.mul_pos (pow10_pos exponent.toNat) (pow2_pos (2 - e).toNat))
  rw [grid_ratio] at hnearest
  rw [shortestOn, hexponent]
  generalize nearestEven _ _ = k at hnearest ⊢
  obtain ⟨j, hj, hother⟩ : ∃ j,
      (if k * (pow10 exponent.toNat * pow2 (2 - e).toNat) ≤
        4 * m * (pow10 (-exponent).toNat * pow2 (e - 2).toNat) then k + 1 else k - 1) = j ∧
      ((k : ℚ) * 10 ^ exponent ≤ m * 2 ^ e ∧ j = k + 1 ∨
        (m : ℚ) * 2 ^ e < k * 10 ^ exponent ∧ j = k - 1) := by
    split
    · rename_i hle
      exact ⟨_, rfl, .inl ⟨(grid_le_iff m k exponent e).1 hle, rfl⟩⟩
    · rename_i hgt
      exact ⟨_, rfl, .inr ⟨not_le.1 (mt (grid_le_iff m k exponent e).2 hgt), rfl⟩⟩
  refine ⟨k, j, ⟨hnearest, hother⟩, fun i hi hrounds => ?_, fun d hd => ?_⟩
  · refine List.findSome?_isSome_iff.2 ⟨i, hj ▸ hi, ?_⟩
    rw [if_pos ((contains_iff_rounds m i exponent e).2 hrounds)]
    rfl
  · obtain ⟨i, hi, hsome⟩ := List.exists_of_findSome?_eq_some hd
    split at hsome
    · rename_i hcontains
      cases hsome
      refine ⟨i, hj ▸ hi, rfl, ?_⟩
      rw [Decimal.toRat_normalize]
      exact (contains_iff_rounds m i exponent e).1 hcontains
    · cases hsome

/-- What lies between two rationals that round to a double rounds to it. -/
theorem Rounds.between {p q r : ℚ} (hp : Rounds p m e) (hr : Rounds r m e) (hpq : p ≤ q)
    (hqr : q ≤ r) : Rounds q m e := by
  have hunit : (0 : ℚ) < 2 ^ e := zpow_pos two_pos e
  have hle : 4 * (p / 2 ^ e) ≤ 4 * (q / 2 ^ e) := by gcongr
  have hle' : 4 * (q / 2 ^ e) ≤ 4 * (r / 2 ^ e) := by gcongr
  exact ⟨hp.1.trans hle, hle'.trans hr.2.1, fun hopen =>
    ⟨(hp.2.2 hopen).1.trans_le hle, hle'.trans_lt (hr.2.2 hopen).2⟩⟩

/-- If a point of the grid rounds to the double, then a neighbour of the double does. -/
theorem Neighbours.rounds {exponent : ℤ} {k j i : ℕ} (h : Neighbours m e exponent k j)
    (hm : 0 < m) (hi : Rounds (i * 10 ^ exponent) m e) :
    ∃ i' ∈ [k, j], Rounds (i' * 10 ^ exponent) m e := by
  have hself := rounds_self hm e
  have hstep : (0 : ℚ) < 10 ^ exponent := by positivity
  have hmono : ∀ {a b : ℕ}, a ≤ b → (a : ℚ) * 10 ^ exponent ≤ b * 10 ^ exponent := by
    intro a b hab
    gcongr
  have hdouble : (m : ℚ) * 2 ^ e = m * 2 ^ e / 10 ^ exponent * 10 ^ exponent :=
    (div_mul_cancel₀ _ hstep.ne').symm
  obtain ⟨hlower, hupper⟩ := abs_le.1 h.nearest.1
  rcases h.other with ⟨hle, rfl⟩ | ⟨hlt, rfl⟩
  · rcases Nat.lt_or_ge k i with hki | hki
    · have hge : (m : ℚ) * 2 ^ e ≤ (k + 1 : ℕ) * 10 ^ exponent := by
        rw [hdouble]
        gcongr
        push_cast
        linarith
      exact ⟨k + 1, by simp, hself.between hi hge (hmono hki)⟩
    · exact ⟨k, by simp, hi.between hself (hmono hki) hle⟩
  · rcases Nat.lt_or_ge i k with hik | hik
    · have hge : ((k - 1 : ℕ) : ℚ) * 10 ^ exponent ≤ m * 2 ^ e := by
        rw [hdouble]
        gcongr
        rw [Nat.cast_sub (by omega), Nat.cast_one]
        linarith
      exact ⟨k - 1, by simp, hi.between hself (hmono (by omega)) hge⟩
    · exact ⟨k, by simp, hself.between hi hlt.le (hmono hik)⟩

/-- The neighbours of a double below a power of ten have no more digits than it has. -/
theorem Neighbours.le_pow {exponent : ℤ} {k j count : ℕ} (h : Neighbours m e exponent k j)
    (hlt : (m : ℚ) * 2 ^ e < 10 ^ count * 10 ^ exponent) : ∀ i ∈ [k, j], i ≤ 10 ^ count := by
  have hstep : (0 : ℚ) < 10 ^ exponent := by positivity
  have hratio : (m : ℚ) * 2 ^ e / 10 ^ exponent < 10 ^ count := (div_lt_iff₀ hstep).2 hlt
  obtain ⟨hlower, hupper⟩ := abs_le.1 h.nearest.1
  have hk : k ≤ 10 ^ count := by
    have hlt' : (k : ℚ) < (10 ^ count + 1 : ℕ) := by
      push_cast
      linarith
    exact Nat.lt_succ_iff.1 (by exact_mod_cast hlt')
  have hj : j ≤ 10 ^ count := by
    rcases h.other with ⟨hle, rfl⟩ | ⟨-, rfl⟩
    · have hlt' : (k : ℚ) < (10 ^ count : ℕ) := by
        push_cast
        exact (le_div_iff₀ hstep |>.2 hle).trans_lt hratio
      exact_mod_cast hlt'
    · omega
  simp [hk, hj]

/-- On a grid with sixteen digits or more after the first, the nearest point rounds to the
    double. -/
theorem rounds_of_nearest {k : ℕ} {step : ℚ} (hm : 0 < m) (hlt : m < pow2 53)
    (hstep : 0 < step) (hfine : 10 ^ 16 * step ≤ m * 2 ^ e)
    (hk : Nearest (m * 2 ^ e / step) k) : Rounds (k * step) m e := by
  have hunit : (0 : ℚ) < 2 ^ e := zpow_pos two_pos e
  obtain ⟨t, ht⟩ : ∃ t, t = step / 2 ^ e := ⟨_, rfl⟩
  have htpos : 0 < t := ht ▸ div_pos hstep hunit
  have hfine' : 10 ^ 16 * t ≤ m := by
    rw [ht, ← mul_div_assoc, div_le_iff₀ hunit]
    exact hfine
  have hratio : (m : ℚ) * 2 ^ e / step = m / t := by
    rw [ht, div_div_eq_mul_div]
  have hunits : 4 * (k * step / 2 ^ e) = 4 * (k * t) := by
    rw [ht, mul_div_assoc]
  -- The point is at most half of a step away.
  have hnear : |(m : ℚ) - k * t| ≤ t / 2 := by
    have hscaled : (m : ℚ) - k * t = (m / t - k) * t := by
      field_simp
    have hhalf : |(m : ℚ) / t - k| ≤ 1 / 2 := hratio ▸ hk.1
    rw [hscaled, abs_mul, abs_of_pos htpos]
    linarith [mul_le_mul_of_nonneg_right hhalf htpos.le]
  obtain ⟨hlower, hupper⟩ := abs_le.1 hnear
  have hm' : (m : ℚ) + 1 ≤ 2 ^ 53 := by exact_mod_cast hlt
  have hends : 2 * t < if m = pow2 52 ∧ e ≠ -1074 then 1 else 2 := by
    split
    · rename_i hpower
      have hm'' : (m : ℚ) = 2 ^ 52 := by exact_mod_cast hpower.1
      norm_num at hm'' hfine' ⊢
      linarith
    · norm_num at hm' hfine' ⊢
      linarith
  have hends' : 2 * t < 2 := by
    refine hends.trans_le ?_
    split <;> norm_num
  rw [Rounds, Interval.Holds, hunits, below_interval hm, above_interval]
  exact ⟨by linarith, by linarith, fun _ => ⟨by linarith, by linarith⟩⟩

/-! ## The shortest decimal -/

/-- The magnitude that the search starts from is that of the double. -/
theorem floorLog10_parts (hm : 0 < m) (e : ℤ) :
    floorLog10 (m * pow2 e.toNat) (pow2 (-e).toNat) = Int.log 10 ((m : ℚ) * 2 ^ e) := by
  rw [floorLog10_eq (Nat.mul_pos hm (pow2_pos _)) (pow2_pos _), Nat.cast_mul, mul_div_assoc,
    pow2_div_pow2]

/-- With seventeen digits there is a decimal that rounds to the double. -/
theorem shortestOn_seventeen (hm : 0 < m) (hc : Canonical m e) :
    (shortestOn m e (Int.log 10 ((m : ℚ) * 2 ^ e)) 17).isSome := by
  have hpos : (0 : ℚ) < m * 2 ^ e := by positivity
  obtain ⟨k, j, hneighbours, hfound, -⟩ :=
    exists_neighbours m e (Int.log 10 ((m : ℚ) * 2 ^ e)) 17
  have hfine : (10 : ℚ) ^ 16 * 10 ^ (Int.log 10 ((m : ℚ) * 2 ^ e) - (17 : ℕ) + 1) ≤ m * 2 ^ e := by
    refine le_trans (le_of_eq ?_) (Int.zpow_log_le_self (b := 10) (by decide) hpos)
    rw [← zpow_natCast, ← zpow_add₀ (by norm_num)]
    congr 1
    omega
  exact hfound k List.mem_cons_self
    (rounds_of_nearest hm hc.1 (by positivity) hfine hneighbours.nearest)

/-- A decimal that rounds to the double is a point of the grid for its count of digits, or there is
    a power of ten between it and the double. -/
theorem exists_grid_point {d : Decimal} (hm : 0 < m)
    (h : Rounds d.toRat m e) :
    ∃ i : ℕ, Rounds (i * 10 ^ (Int.log 10 ((m : ℚ) * 2 ^ e) -
      (Decimal.digitCount d.digits : ℕ) + 1)) m e := by
  have hpos : (0 : ℚ) < m * 2 ^ e := by positivity
  have hcount := Decimal.digitCount_pos d.digits
  have hlog : (10 : ℚ) ^ Int.log 10 ((m : ℚ) * 2 ^ e) ≤ m * 2 ^ e :=
    Int.zpow_log_le_self (b := 10) (by decide) hpos
  generalize Int.log 10 ((m : ℚ) * 2 ^ e) = magnitude at hlog ⊢
  rcases Int.lt_or_le d.magnitude magnitude with hlt | hle
  · refine ⟨10 ^ (Decimal.digitCount d.digits - 1), ?_⟩
    have hpower : ((10 ^ (Decimal.digitCount d.digits - 1) : ℕ) : ℚ) *
        10 ^ (magnitude - (Decimal.digitCount d.digits : ℕ) + 1) = 10 ^ magnitude := by
      push_cast
      rw [← zpow_natCast, ← zpow_add₀ (by norm_num)]
      congr 1
      omega
    have hbelow : d.toRat ≤ 10 ^ magnitude :=
      d.lt_pow_magnitude.le.trans (zpow_le_zpow_right₀ (by norm_num) hlt)
    rw [hpower]
    exact h.between (rounds_self hm e) hbelow hlog
  · obtain ⟨z, hz⟩ : ∃ z : ℕ, d.magnitude = magnitude + z :=
      ⟨(d.magnitude - magnitude).toNat, by omega⟩
    refine ⟨d.digits * 10 ^ z, ?_⟩
    have hvalue : ((d.digits * 10 ^ z : ℕ) : ℚ) *
        10 ^ (magnitude - (Decimal.digitCount d.digits : ℕ) + 1) = d.toRat := by
      rw [Decimal.magnitude] at hz
      push_cast
      rw [Decimal.toRat, mul_assoc, ← zpow_natCast, ← zpow_add₀ (by norm_num)]
      congr 2
      omega
    rw [hvalue]
    exact h

/-- The shortest decimal is found on the first grid on which there is one. -/
theorem exists_count (hm : 0 < m) (hc : Canonical m e) :
    ∃ count, 0 < count ∧
      shortestOn m e (Int.log 10 ((m : ℚ) * 2 ^ e)) count = some (shortest m e) ∧
      ∀ c, 0 < c → (shortestOn m e (Int.log 10 ((m : ℚ) * 2 ^ e)) c).isSome → count ≤ c := by
  have hsome : ((List.range' 1 17).findSome?
      (shortestOn m e (Int.log 10 ((m : ℚ) * 2 ^ e)))).isSome :=
    List.findSome?_isSome_iff.2 ⟨17, by decide, shortestOn_seventeen hm hc⟩
  obtain ⟨d, hd⟩ := Option.isSome_iff_exists.1 hsome
  obtain ⟨before, count, after, hrange, hcount, hnone⟩ := List.findSome?_eq_some_iff.1 hd
  rw [shortest, floorLog10_parts hm, hd, Option.getD_some]
  have hmem : count ∈ List.range' 1 17 := by simp [hrange]
  rw [List.mem_range'_1] at hmem
  refine ⟨count, hmem.1, hcount, fun c hpos hfound => ?_⟩
  by_contra hlt
  -- A smaller count comes before in the range, where nothing is found.
  have hc : c ∈ List.range' 1 17 := List.mem_range'_1.2 ⟨hpos, by omega⟩
  have hsorted := (List.pairwise_lt_range' : (List.range' 1 17).Pairwise (· < ·))
  rw [hrange] at hc hsorted
  rcases List.mem_append.1 hc with hbefore | hafter
  · rw [hnone c hbefore] at hfound
    cases hfound
  · rcases List.mem_cons.1 hafter with rfl | hafter
    · exact hlt le_rfl
    · have := List.rel_of_pairwise_cons (List.pairwise_append.1 hsorted).2.1 hafter
      omega

/-- The shortest decimal rounds to the double. -/
theorem rounds_shortest (hm : 0 < m) (hc : Canonical m e) : Rounds (shortest m e).toRat m e := by
  obtain ⟨count, -, hcount, -⟩ := exists_count hm hc
  obtain ⟨k, j, -, -, hfound⟩ := exists_neighbours m e (Int.log 10 ((m : ℚ) * 2 ^ e)) count
  obtain ⟨-, -, -, hrounds⟩ := hfound _ hcount
  exact hrounds

/-- No decimal that rounds to the double has fewer digits than the shortest one. -/
theorem digitCount_shortest_le {d : Decimal} (hm : 0 < m) (hc : Canonical m e)
    (h : Rounds d.toRat m e) :
    Decimal.digitCount (shortest m e).digits ≤ Decimal.digitCount d.digits := by
  obtain ⟨count, hcount, hshortest, hleast⟩ := exists_count hm hc
  have hle : count ≤ Decimal.digitCount d.digits := by
    refine hleast _ (Decimal.digitCount_pos _) ?_
    obtain ⟨k, j, hneighbours, hfound, -⟩ :=
      exists_neighbours m e (Int.log 10 ((m : ℚ) * 2 ^ e)) (Decimal.digitCount d.digits)
    obtain ⟨i, hi⟩ := exists_grid_point hm h
    obtain ⟨i', hmem, hrounds⟩ := hneighbours.rounds hm hi
    exact hfound i' hmem hrounds
  refine le_trans ?_ hle
  obtain ⟨k, j, hneighbours, -, hfound⟩ :=
    exists_neighbours m e (Int.log 10 ((m : ℚ) * 2 ^ e)) count
  obtain ⟨i, hi, heq, -⟩ := hfound _ hshortest
  have hlog : (m : ℚ) * 2 ^ e < 10 ^ (Int.log 10 ((m : ℚ) * 2 ^ e) + 1) :=
    Int.lt_zpow_succ_log_self (b := 10) (by decide) _
  have hlt : (m : ℚ) * 2 ^ e <
      10 ^ count * 10 ^ (Int.log 10 ((m : ℚ) * 2 ^ e) - (count : ℕ) + 1) := by
    refine hlog.trans_eq ?_
    rw [← zpow_natCast, ← zpow_add₀ (by norm_num)]
    congr 1
    omega
  rw [heq]
  exact Decimal.digitCount_normalize_le hcount (hneighbours.le_pow hlt i hi)

/-- The shortest decimal has digits. -/
theorem digits_shortest_pos (hm : 0 < m) (hc : Canonical m e) : 0 < (shortest m e).digits := by
  have hne : (shortest m e).toRat ≠ 0 := ((rounds_shortest hm hc).pos hm).ne'
  exact Nat.pos_of_ne_zero (mt Decimal.toRat_eq_zero_iff.2 hne)

/-- The double nearest to what rounds to one, with either sign. -/
theorem ofRat_of_rounds {q : ℚ} (negative : Bool) (hm : 0 < m) (hc : Canonical m e)
    (h : Rounds q m e) : ofRat negative (if negative then -q else q) = .finite negative m e hc := by
  have hq := h.pos hm
  have hratio : q = (q.num.natAbs : ℕ) / (q.den : ℕ) := by
    rw [Nat.cast_natAbs, abs_of_nonneg (Rat.num_nonneg.2 hq.le), Rat.num_div_den]
  rw [ofRat_signed negative q.pos hratio]
  exact ofRatio_of_rounds (Int.natAbs_pos.2 (Rat.num_pos.2 hq).ne') q.pos hm hc (hratio ▸ h)

/-- The double nearest to the shortest decimal of one is this double. -/
theorem ofDecimal_shortest (negative : Bool) (hm : 0 < m) (hc : Canonical m e) :
    ofDecimal negative (shortest m e) = .finite negative m e hc := by
  rw [ofDecimal_eq_ofRat]
  exact ofRat_of_rounds negative hm hc (rounds_shortest hm hc)

/-- The shortest decimals are in the order of the doubles, so that the magnitude of one is decided
    by the double nearest to a power of ten, if the power is the shortest decimal of this. -/
theorem le_magnitude_shortest_iff {k : ℤ} {m' : ℕ} {e' : ℤ} (hm : 0 < m) (hm' : 0 < m')
    (hc : Canonical m e) (hc' : Canonical m' e') (hpower : shortest m' e' = ⟨1, k⟩) :
    k ≤ (shortest m e).magnitude ↔ (m' : ℚ) * 2 ^ e' ≤ m * 2 ^ e := by
  have hround := rounds_shortest hm hc
  have hround' : Rounds (10 ^ k) m' e' := by
    have h := rounds_shortest hm' hc'
    rwa [hpower, Decimal.toRat, Nat.cast_one, one_mul] at h
  rw [Decimal.le_magnitude_iff (digits_shortest_pos hm hc)]
  constructor
  · intro hle
    exact hround'.mono hm' hm hc' hc hround hle
  · intro hle
    by_contra hlt
    -- Rounding keeps the order, so that the doubles are equal, and with them their decimals.
    have hge := hround.mono hm hm' hc hc' hround' (le_of_not_ge hlt)
    have heq := le_antisymm hle hge
    obtain ⟨rfl, rfl⟩ := (rounds_self hm' e').unique hm' hm hc' hc (heq ▸ rounds_self hm e)
    rw [hpower, Decimal.toRat, Nat.cast_one, one_mul] at hlt
    exact hlt le_rfl

end Double

end TaintWeave
