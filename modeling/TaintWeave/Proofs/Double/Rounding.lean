import TaintWeave.Proofs.Double.Logarithm

/-!
# Rounding

The double nearest to a ratio is computed with natural numbers: a logarithm from the lengths of the
two parts, a quotient and its remainder. Here this is arithmetic of rationals again, so that nothing
depends on how a ratio is written. The significand is the natural number nearest to the ratio in
units of the last place (`Nearest`), and the last place is given by the logarithm.

A rational rounds to a double exactly if it lies in the interval around it that ends halfway to the
neighbours (`Double.ofRatio_of_rounds`, and `Double.rounds_of_ofRatio` for the other direction). The
interval of a smaller double lies before that of a greater one, so that rounding keeps the order.

* `nearest_nearestEven`: the quotient rounded to the nearest, a tie to the even one.
* `Double.ofRatio_of_nearest`: the double nearest to a ratio.
* `Double.ofRatio_of_rounds`, `Double.rounds_of_ofRatio`: which it is.
* `Double.ofRatio_of_large`, `Double.ofRatio_of_small`: what is beyond all doubles, or zero.
* `Double.Rounds.unique`, `Double.Rounds.mono`: rounding as a function, and its order.
-/

namespace TaintWeave

/-! ## Nearest natural numbers -/

/-- A natural number is nearest to a rational, and even if there is another one. -/
def Nearest (q : ℚ) (k : ℕ) : Prop := |q - k| ≤ 1 / 2 ∧ (|q - k| = 1 / 2 → k % 2 = 0)

/-- At most one natural number is nearest. -/
theorem Nearest.unique {q : ℚ} {k l : ℕ} (hk : Nearest q k) (hl : Nearest q l) : k = l := by
  wlog h : k < l generalizing k l
  · rcases Nat.lt_or_ge l k with hlt | hge
    · exact (this hl hk hlt).symm
    · exact Nat.le_antisymm hge (Nat.not_lt.1 h)
  · -- Both are at a distance of one half, and then both are even.
    have hle : (k : ℚ) + 1 ≤ l := by exact_mod_cast h
    have hk' := abs_le.1 hk.1
    have hl' := abs_le.1 hl.1
    have heq : q - k = 1 / 2 := by linarith
    have heq' : q - l = -(1 / 2) := by linarith
    have heven := hk.2 (by rw [heq]; norm_num)
    have heven' := hl.2 (by rw [heq']; norm_num)
    have hsucc : l = k + 1 := by exact_mod_cast (by linarith : (l : ℚ) = k + 1)
    omega

/-- The quotient is rounded to the nearest natural number. -/
theorem nearest_nearestEven (n : ℕ) {d : ℕ} (hd : 0 < d) :
    Nearest ((n : ℚ) / d) (nearestEven n d) := by
  have hd' : (0 : ℚ) < d := by exact_mod_cast hd
  have hsplit : (n : ℚ) / d = (n / d : ℕ) + ((n % d : ℕ) : ℚ) / d := by
    have hn : (n : ℚ) = d * (n / d : ℕ) + (n % d : ℕ) := by
      exact_mod_cast (Nat.div_add_mod n d).symm
    field_simp
    exact hn
  have hrest : ((n % d : ℕ) : ℚ) / d < 1 := by
    rw [div_lt_one hd']
    exact_mod_cast Nat.mod_lt n hd
  have hrest' : (0 : ℚ) ≤ ((n % d : ℕ) : ℚ) / d := by positivity
  -- Whether the rest is below, at or above one half.
  have hbelow : 2 * (n % d) < d ↔ ((n % d : ℕ) : ℚ) / d < 1 / 2 := by
    rw [div_lt_iff₀ hd', ← Nat.cast_lt (α := ℚ)]
    push_cast
    constructor <;> intro h <;> linarith
  have hhalf : 2 * (n % d) = d ↔ ((n % d : ℕ) : ℚ) / d = 1 / 2 := by
    rw [div_eq_iff hd'.ne', ← Nat.cast_inj (R := ℚ)]
    push_cast
    constructor <;> intro h <;> linarith
  rw [nearestEven, hsplit]
  split
  · rename_i h
    rw [hbelow, hhalf] at h
    have hle : ((n % d : ℕ) : ℚ) / d ≤ 1 / 2 := h.elim le_of_lt fun h => h.1.le
    rw [Nearest, add_sub_cancel_left, abs_of_nonneg hrest']
    exact ⟨hle, fun heq => h.elim (fun hlt => absurd heq hlt.ne) fun h => h.2⟩
  · rename_i h
    rw [hbelow, hhalf] at h
    push Not at h
    rw [Nearest, Nat.cast_add, Nat.cast_one, add_sub_add_left_eq_sub, abs_of_nonpos (by linarith)]
    refine ⟨by linarith [h.1], fun heq => ?_⟩
    have := h.2 (by linarith)
    omega

/-- Some natural number is nearest to a rational that is not negative. -/
theorem exists_nearest {q : ℚ} (hq : 0 ≤ q) : ∃ k, Nearest q k := by
  have hnum : (q.num.natAbs : ℚ) / q.den = q := by
    rw [Nat.cast_natAbs, abs_of_nonneg (Rat.num_nonneg.2 hq), Rat.num_div_den]
  exact ⟨_, hnum ▸ nearest_nearestEven q.num.natAbs q.pos⟩

/-- From half a unit below an even number on, this is the nearest one: an exact half goes to it. -/
theorem Nearest.eq_iff_of_even {q : ℚ} {k n : ℕ} (hk : Nearest q k) (hle : k ≤ n)
    (heven : n % 2 = 0) : k = n ↔ (n : ℚ) - 1 / 2 ≤ q := by
  obtain ⟨hbelow, habove⟩ := abs_le.1 hk.1
  constructor
  · rintro rfl
    linarith
  · intro hge
    by_contra hne
    have hlt : k + 1 ≤ n := Nat.lt_of_le_of_ne hle hne
    have hlt' : (k : ℚ) + 1 ≤ n := by exact_mod_cast hlt
    -- Only a tie with the number before is left, and this is odd.
    have htie := hk.2 ((abs_of_nonneg (by linarith)).trans (by linarith))
    have hnext : (n : ℚ) = (k + 1 : ℕ) := by
      rw [Nat.cast_succ]
      linarith
    have hnext' : n = k + 1 := by exact_mod_cast hnext
    omega

/-! ## The double nearest to a ratio -/

namespace Double

/-- The exponent of the last place of the double nearest to a rational. -/
def lastPlace (q : ℚ) : ℤ := max (Int.log 2 q - 52) (-1074)

/-- The double nearest to a ratio has the significand nearest to it in units of the last place; if
    that has a bit too many, it is the next power of two. -/
theorem ofRatio_of_nearest {negative : Bool} {n d k : ℕ} (hn : 0 < n) (hd : 0 < d)
    (hk : Nearest ((n : ℚ) / d / 2 ^ lastPlace (n / d)) k) :
    ofRatio negative n d =
      if k = pow2 53 then ofParts negative (pow2 52) (lastPlace (n / d) + 1)
      else ofParts negative k (lastPlace (n / d)) := by
  have hnearest := nearest_nearestEven (n * pow2 (-lastPlace (n / d)).toNat)
    (Nat.mul_pos hd (pow2_pos (lastPlace (n / d)).toNat))
  have hratio : ((n * pow2 (-lastPlace (n / d)).toNat : ℕ) : ℚ) /
      (d * pow2 (lastPlace (n / d)).toNat : ℕ) = n / d / 2 ^ lastPlace (n / d) := by
    rw [← pow2_div_pow2, Nat.cast_mul, Nat.cast_mul, mul_div_mul_comm, div_div_eq_mul_div,
      mul_div_assoc]
  rw [hratio] at hnearest
  rw [ofRatio, if_neg hn.ne', floorLog2_eq hn hd, hk.unique hnearest]
  rfl

/-- How a ratio is written does not matter. -/
theorem ofRatio_congr {negative : Bool} {n d n' d' : ℕ} (hd : 0 < d) (hd' : 0 < d')
    (h : (n : ℚ) / d = n' / d') : ofRatio negative n d = ofRatio negative n' d' := by
  have hd₀ : (d : ℚ) ≠ 0 := by exact_mod_cast hd.ne'
  have hd₀' : (d' : ℚ) ≠ 0 := by exact_mod_cast hd'.ne'
  have hzero : n = 0 ↔ n' = 0 := by
    have := congrArg (· = 0) h
    simpa [hd₀, hd₀'] using this
  rcases Nat.eq_zero_or_pos n with hn | hn
  · rw [ofRatio, ofRatio, if_pos hn, if_pos (hzero.1 hn)]
  · have hn' : 0 < n' := Nat.pos_of_ne_zero fun h => hn.ne' (hzero.2 h)
    obtain ⟨k, hk⟩ : ∃ k, Nearest ((n : ℚ) / d / 2 ^ lastPlace (n / d)) k :=
      exists_nearest (by positivity)
    rw [ofRatio_of_nearest hn hd hk, ofRatio_of_nearest hn' hd' (h ▸ hk), h]

/-- A ratio of `2 ^ 1024` or more is beyond all doubles. -/
theorem ofRatio_of_large {negative : Bool} {n d : ℕ} (hd : 0 < d)
    (h : (2 : ℚ) ^ (1024 : ℤ) ≤ n / d) : ofRatio negative n d = .infinite negative := by
  have hq : (0 : ℚ) < n / d := (zpow_pos two_pos _).trans_le h
  have hn : 0 < n := Nat.pos_of_ne_zero fun hn => by simp [hn] at hq
  have hplace : 972 ≤ lastPlace (n / d) := by
    have := (Int.zpow_le_iff_le_log one_lt_two hq).1 h
    rw [lastPlace]
    omega
  have hinfinite : ∀ (k : ℕ) (e : ℤ), 972 ≤ e → ofParts negative k e = .infinite negative := by
    intro k e he
    exact dif_neg fun hc => by linarith [hc.2.2.1]
  obtain ⟨k, hk⟩ : ∃ k, Nearest ((n : ℚ) / d / 2 ^ lastPlace (n / d)) k :=
    exists_nearest (by positivity)
  rw [ofRatio_of_nearest hn hd hk, hinfinite _ _ (by linarith), hinfinite _ _ hplace, ite_self]

/-- A ratio below half of the least double is rounded to zero. -/
theorem ofRatio_of_small {negative : Bool} {n d : ℕ} (hn : 0 < n) (hd : 0 < d)
    (h : (n : ℚ) / d < 2 ^ (-1075 : ℤ)) : ofRatio negative n d = zero negative := by
  have hq : (0 : ℚ) < n / d := by positivity
  have hplace : lastPlace (n / d) = -1074 := by
    have := (Int.lt_zpow_iff_log_lt one_lt_two hq).1 h
    rw [lastPlace]
    omega
  have hnearest : Nearest ((n : ℚ) / d / 2 ^ lastPlace (n / d)) 0 := by
    have hhalf : (n : ℚ) / d / 2 ^ lastPlace (n / d) < 1 / 2 := by
      rw [hplace, div_lt_iff₀ (zpow_pos two_pos _)]
      refine h.trans_eq ?_
      rw [one_div, ← zpow_neg_one, ← zpow_add₀ two_ne_zero]
      norm_num
    rw [Nearest, Nat.cast_zero, sub_zero, abs_of_nonneg (by positivity)]
    exact ⟨hhalf.le, fun heq => absurd heq hhalf.ne⟩
  rw [ofRatio_of_nearest hn hd hnearest, hplace]
  rfl

/-! ## The interval around a double -/

/-- Whether a rational lies in an interval. -/
def Interval.Holds (i : Interval) (q : ℚ) : Prop :=
  i.below ≤ q ∧ q ≤ i.above ∧ (i.closed = false → i.below < q ∧ q < i.above)

/-- Whether a ratio lies in an interval is decided with natural numbers. -/
theorem Interval.contains_iff {i : Interval} {n d : ℕ} (hd : 0 < d) :
    i.contains n d = true ↔ i.Holds ((n : ℚ) / d) := by
  have hd' : (0 : ℚ) < d := by exact_mod_cast hd
  rw [contains, Holds, le_div_iff₀ hd', div_le_iff₀ hd', lt_div_iff₀ hd', div_lt_iff₀ hd']
  norm_cast
  cases i.closed
  · simp only [Bool.false_eq_true, if_false, Bool.and_eq_true, decide_eq_true_eq, forall_const]
    exact ⟨fun h => ⟨h.1.le, h.2.le, h⟩, fun h => h.2.2⟩
  · simp

/-- Whether a rational rounds to `m * 2 ^ e`: it lies in the interval around it, in units of a
    quarter of the last place. -/
def Rounds (q : ℚ) (m : ℕ) (e : ℤ) : Prop := (interval m e).Holds (4 * (q / 2 ^ e))

/-- The lower end of the interval, a quarter or half of the last place below the double. -/
theorem below_interval {m : ℕ} (hm : 0 < m) (e : ℤ) :
    ((interval m e).below : ℚ) = 4 * m - if m = pow2 52 ∧ e ≠ -1074 then 1 else 2 := by
  rw [interval]
  split
  · rw [Nat.cast_sub (by omega)]
    push_cast
    rfl
  · rw [Nat.cast_sub (by omega)]
    push_cast
    rfl

/-- The upper end of the interval, half of the last place above the double. -/
theorem above_interval (m : ℕ) (e : ℤ) : ((interval m e).above : ℚ) = 4 * m + 2 := by
  rw [interval]
  push_cast
  rfl

/-- The significand of a double is the natural number nearest to what rounds to it. -/
theorem Rounds.nearest {q : ℚ} {m : ℕ} {e : ℤ} (hm : 0 < m) (h : Rounds q m e) :
    Nearest (q / 2 ^ e) m := by
  obtain ⟨hbelow, habove, hopen⟩ := h
  rw [below_interval hm] at hbelow hopen
  rw [above_interval] at habove hopen
  have hends : (4 * m - 2 : ℚ) ≤ 4 * m - if m = pow2 52 ∧ e ≠ -1074 then 1 else 2 := by
    split <;> linarith
  refine ⟨abs_le.2 ⟨by linarith, by linarith⟩, fun heq => ?_⟩
  -- At half of the last place the interval is closed.
  by_contra hodd
  have hstrict := hopen (by simp [interval, hodd])
  have hlt : |q / 2 ^ e - m| < 1 / 2 := abs_lt.2 ⟨by linarith, by linarith⟩
  exact hlt.ne heq

/-- The exponent of the last place of a double is that of what rounds to it, unless this is below
    a power of two. -/
theorem Rounds.lastPlace_eq {q : ℚ} {m : ℕ} {e : ℤ} (hm : 0 < m) (hc : Canonical m e)
    (h : Rounds q m e) (hq : 0 < q) (hbinade : 2 ^ 52 ≤ q / 2 ^ e ∨ e = -1074) :
    lastPlace q = e := by
  have hunit : (0 : ℚ) < 2 ^ e := zpow_pos two_pos e
  have hsignificand : (m : ℚ) + 1 ≤ 2 ^ 53 := by exact_mod_cast hc.1
  have hupper : q < 2 ^ (53 + e) := by
    rw [zpow_add₀ two_ne_zero, ← div_lt_iff₀ hunit]
    have := (abs_le.1 (h.nearest hm).1).2
    norm_num at this ⊢
    linarith
  have hlog := (Int.lt_zpow_iff_log_lt one_lt_two hq).1 hupper
  have hleast := hc.2.1
  rw [lastPlace]
  rcases hbinade with hlower | he
  · have hlower' : (2 : ℚ) ^ (52 + e) ≤ q := by
      rw [zpow_add₀ two_ne_zero, ← le_div_iff₀ hunit]
      exact_mod_cast hlower
    have := (Int.zpow_le_iff_le_log one_lt_two hq).1 hlower'
    omega
  · omega

/-- What rounds to a double is given that double. -/
theorem ofRatio_of_rounds {negative : Bool} {n d m : ℕ} {e : ℤ} (hn : 0 < n) (hd : 0 < d)
    (hm : 0 < m) (hc : Canonical m e) (h : Rounds (n / d) m e) :
    ofRatio negative n d = .finite negative m e hc := by
  have hq : (0 : ℚ) < n / d := by positivity
  by_cases hbinade : (2 : ℚ) ^ 52 ≤ n / d / 2 ^ e ∨ e = -1074
  · have hplace := h.lastPlace_eq hm hc hq hbinade
    rw [ofRatio_of_nearest hn hd (hplace.symm ▸ h.nearest hm), hplace, if_neg hc.1.ne, ofParts,
      dif_pos hc]
  · -- Only a power of two has what rounds to it below its binade, in the one before. There the
    -- last place is half as large, and rounding gives the significand a bit too many.
    push Not at hbinade
    obtain ⟨hlower, he⟩ := hbinade
    obtain ⟨hbelow, -, -⟩ := h
    rw [below_interval hm] at hbelow
    have hm' : m = pow2 52 := by
      by_contra hne
      have hgt : pow2 52 + 1 ≤ m := by
        have := hc.2.2.2.resolve_right he
        omega
      have hgt' : (2 : ℚ) ^ 52 + 1 ≤ m := by exact_mod_cast hgt
      rw [if_neg fun h => hne h.1] at hbelow
      linarith
    subst hm'
    rw [if_pos ⟨rfl, he⟩, pow2_cast] at hbelow
    have hunit : (0 : ℚ) < 2 ^ e := zpow_pos two_pos e
    have hplace : lastPlace (n / d) = e - 1 := by
      have hlog : Int.log 2 ((n : ℚ) / d) = 51 + e := by
        refine log_eq one_lt_two hq ?_ ?_
        · rw [Nat.cast_two, zpow_add₀ two_ne_zero, ← le_div_iff₀ hunit]
          norm_num at hbelow ⊢
          linarith
        · rw [Nat.cast_two, add_right_comm, zpow_add₀ two_ne_zero, ← div_lt_iff₀ hunit]
          norm_num at hlower ⊢
          exact hlower
      have := hc.2.1
      rw [lastPlace, hlog]
      omega
    have hdouble : (n : ℚ) / d / 2 ^ (e - 1) = 2 * (n / d / 2 ^ e) := by
      rw [zpow_sub_one₀ two_ne_zero]
      field_simp
    have hnearest : Nearest ((n : ℚ) / d / 2 ^ lastPlace (n / d)) (pow2 53) := by
      rw [hplace, hdouble, Nearest, pow2_cast]
      refine ⟨abs_le.2 ⟨?_, ?_⟩, fun _ => rfl⟩
      · norm_num at hbelow ⊢
        linarith
      · norm_num at hlower ⊢
        linarith
    rw [ofRatio_of_nearest hn hd hnearest, if_pos rfl, hplace, sub_add_cancel, ofParts, dif_pos hc]

/-- The parts of a finite double are the ones it was made of. -/
theorem eq_of_ofParts {negative negative' : Bool} {k m : ℕ} {e e' : ℤ} {hc : Canonical m e'}
    (h : ofParts negative k e = .finite negative' m e' hc) : k = m ∧ e = e' := by
  rw [ofParts] at h
  split at h
  · injection h with _ hk he
    exact ⟨hk, he⟩
  · cases h

/-- A rational has at most 53 bits before its last place, and 53 unless this is the least one. -/
theorem lastPlace_bounds {q : ℚ} (hq : 0 < q) :
    q / 2 ^ lastPlace q < 2 ^ 53 ∧ (lastPlace q ≠ -1074 → 2 ^ 52 ≤ q / 2 ^ lastPlace q) := by
  have hunit : (0 : ℚ) < 2 ^ lastPlace q := zpow_pos two_pos _
  constructor
  · have hlt : q < 2 ^ (Int.log 2 q + 1) := Int.lt_zpow_succ_log_self (b := 2) one_lt_two q
    rw [div_lt_iff₀ hunit, ← zpow_natCast, ← zpow_add₀ two_ne_zero]
    refine hlt.trans_le (zpow_le_zpow_right₀ one_le_two ?_)
    rw [lastPlace]
    omega
  · intro hplace
    have hle : 2 ^ Int.log 2 q ≤ q := Int.zpow_log_le_self (b := 2) one_lt_two hq
    rw [le_div_iff₀ hunit, ← zpow_natCast, ← zpow_add₀ two_ne_zero]
    refine (zpow_le_zpow_right₀ one_le_two ?_).trans hle
    rw [lastPlace] at hplace ⊢
    omega

/-- What is given a double rounds to it. -/
theorem rounds_of_ofRatio {negative : Bool} {n d m : ℕ} {e : ℤ} {hc : Canonical m e} (hn : 0 < n)
    (hd : 0 < d) (hm : 0 < m) (h : ofRatio negative n d = .finite negative m e hc) :
    Rounds (n / d) m e := by
  have hq : (0 : ℚ) < n / d := by positivity
  obtain ⟨k, hk⟩ : ∃ k, Nearest ((n : ℚ) / d / 2 ^ lastPlace (n / d)) k :=
    exists_nearest (by positivity)
  obtain ⟨hupper, hfull⟩ := lastPlace_bounds hq
  have hnear := abs_le.1 hk.1
  rw [ofRatio_of_nearest hn hd hk] at h
  rw [Rounds, Interval.Holds, below_interval hm, above_interval]
  split at h
  · -- The significand is carried into a power of two, and was less than one place below it.
    rename_i hcarry
    obtain ⟨rfl, rfl⟩ := eq_of_ofParts h
    have hhalf : (n : ℚ) / d / 2 ^ (lastPlace (n / d) + 1) =
        n / d / 2 ^ lastPlace (n / d) / 2 := by
      rw [zpow_add_one₀ two_ne_zero, div_mul_eq_div_div]
    have hplace : lastPlace ((n : ℚ) / d) + 1 ≠ -1074 := by
      rw [lastPlace]
      omega
    rw [if_pos ⟨rfl, hplace⟩, hhalf, pow2_cast]
    rw [hcarry, pow2_cast] at hnear
    norm_num at hnear hupper ⊢
    exact ⟨by linarith, by linarith, fun hopen => by simp [interval, pow2] at hopen⟩
  · obtain ⟨rfl, rfl⟩ := eq_of_ofParts h
    by_cases hpower : k = pow2 52 ∧ lastPlace ((n : ℚ) / d) ≠ -1074
    · have hle := hfull hpower.2
      have hk' : (k : ℚ) = 2 ^ 52 := by rw [hpower.1, pow2_cast]
      rw [if_pos hpower]
      refine ⟨by linarith, by linarith, fun hopen => ?_⟩
      simp [interval, pow2, hpower.1] at hopen
    · rw [if_neg hpower]
      refine ⟨by linarith, by linarith, fun hopen => ?_⟩
      -- At an odd significand there is no tie.
      have hodd : ¬k % 2 = 0 := by simpa [interval] using hopen
      obtain ⟨hlower', hupper'⟩ := abs_lt.1 (lt_of_le_of_ne hk.1 (mt hk.2 hodd))
      exact ⟨by linarith, by linarith⟩

/-! ## The doubles in order -/

/-- A double rounds to itself. -/
theorem rounds_self {m : ℕ} (hm : 0 < m) (e : ℤ) : Rounds (m * 2 ^ e) m e := by
  have hunits : 4 * ((m : ℚ) * 2 ^ e / 2 ^ e) = 4 * m := by
    rw [mul_div_cancel_right₀ _ (zpow_pos two_pos e).ne']
  have hends : (0 : ℚ) < if m = pow2 52 ∧ e ≠ -1074 then 1 else 2 := by split <;> norm_num
  rw [Rounds, Interval.Holds, hunits, below_interval hm, above_interval]
  exact ⟨by linarith, by linarith, fun _ => ⟨by linarith, by linarith⟩⟩

/-- What rounds to a double is positive. -/
theorem Rounds.pos {q : ℚ} {m : ℕ} {e : ℤ} (hm : 0 < m) (h : Rounds q m e) : 0 < q := by
  have hbelow := (abs_le.1 (h.nearest hm).1).1
  have hm' : (1 : ℚ) ≤ m := by exact_mod_cast hm
  have hunits : 0 < q / 2 ^ e := by linarith
  exact (div_pos_iff_of_pos_right (zpow_pos two_pos e)).1 hunits

/-- A rational rounds to one double. -/
theorem Rounds.unique {q : ℚ} {m m' : ℕ} {e e' : ℤ} (hm : 0 < m) (hm' : 0 < m')
    (hc : Canonical m e) (hc' : Canonical m' e') (h : Rounds q m e) (h' : Rounds q m' e') :
    m = m' ∧ e = e' := by
  have hq := h.pos hm
  have hratio : (q.num.natAbs : ℚ) / q.den = q := by
    rw [Nat.cast_natAbs, abs_of_nonneg (Rat.num_nonneg.2 hq.le), Rat.num_div_den]
  have hnum : 0 < q.num.natAbs := Int.natAbs_pos.2 (Rat.num_pos.2 hq).ne'
  have hround : ofRatio false q.num.natAbs q.den = .finite false m e hc :=
    ofRatio_of_rounds hnum q.pos hm hc (hratio.symm ▸ h)
  have hround' : ofRatio false q.num.natAbs q.den = .finite false m' e' hc' :=
    ofRatio_of_rounds hnum q.pos hm' hc' (hratio.symm ▸ h')
  have hsame := hround.symm.trans hround'
  injection hsame with _ hm he
  exact ⟨hm, he⟩

/-- A double with a greater exponent than another one has all its bits. -/
theorem Canonical.full {m : ℕ} {e e' : ℤ} (hc : Canonical m e) (he' : -1074 ≤ e') (h : e' < e) :
    pow2 52 ≤ m :=
  hc.2.2.2.resolve_right (by omega)

/-- The interval of a double with all its bits begins at most a quarter below the least of them. -/
theorem full_le_below {m : ℕ} {e : ℤ} (hm : pow2 52 ≤ m) (he : e ≠ -1074) :
    (2 ^ 54 - 1 : ℚ) ≤ (interval m e).below := by
  rw [below_interval ((pow2_pos 52).trans_le hm)]
  split
  · have hm' : (2 ^ 52 : ℚ) ≤ m := by exact_mod_cast hm
    linarith
  · rename_i hne
    have hgt : pow2 52 + 1 ≤ m := by
      have hne' : m ≠ pow2 52 := fun heq => hne ⟨heq, he⟩
      omega
    have hgt' : (2 ^ 52 + 1 : ℚ) ≤ m := by exact_mod_cast hgt
    linarith

/-- The interval of a smaller double ends before that of a greater one begins. -/
theorem above_le_below {m m' : ℕ} {e e' : ℤ} (hm' : 0 < m') (hc : Canonical m e)
    (hc' : Canonical m' e') (h : (m : ℚ) * 2 ^ e < m' * 2 ^ e') :
    ((interval m e).above : ℚ) * 2 ^ e ≤ (interval m' e').below * 2 ^ e' := by
  have hdouble : ∀ {i j : ℤ}, i < j → (2 : ℚ) ^ i * 2 ≤ 2 ^ j := by
    intro i j hij
    rw [← zpow_add_one₀ two_ne_zero]
    exact zpow_le_zpow_right₀ one_le_two hij
  rw [above_interval]
  rcases lt_trichotomy e e' with he | rfl | he
  · have hsignificand : (m : ℚ) + 1 ≤ 2 ^ 53 := by exact_mod_cast hc.1
    have hbelow := full_le_below (hc'.full hc.2.1 he) (hc.2.1.trans_lt he).ne'
    calc (4 * m + 2 : ℚ) * 2 ^ e ≤ (2 ^ 55 - 2) * 2 ^ e := by gcongr; linarith
      _ = (2 ^ 54 - 1) * (2 ^ e * 2) := by ring
      _ ≤ (2 ^ 54 - 1) * 2 ^ e' := by gcongr; exact hdouble he
      _ ≤ _ := by gcongr
  · have hlt : m < m' := by exact_mod_cast lt_of_mul_lt_mul_right h (zpow_pos two_pos e).le
    have hlt' : (m : ℚ) + 1 ≤ m' := by exact_mod_cast hlt
    rw [below_interval hm']
    gcongr
    split <;> linarith
  · -- With a greater exponent the first double would not be smaller.
    have hsignificand : (m' : ℚ) + 1 ≤ 2 ^ 53 := by exact_mod_cast hc'.1
    have hfull : (2 ^ 52 : ℚ) ≤ m := by exact_mod_cast hc.full hc'.2.1 he
    have hge : (m' : ℚ) * 2 ^ e' ≤ m * 2 ^ e :=
      calc (m' : ℚ) * 2 ^ e' ≤ 2 ^ 53 * 2 ^ e' := by gcongr; linarith
        _ = 2 ^ 52 * (2 ^ e' * 2) := by ring
        _ ≤ m * 2 ^ e := by gcongr; exact hdouble he
    exact absurd h hge.not_gt

/-- Rounding keeps the order. -/
theorem Rounds.mono {q q' : ℚ} {m m' : ℕ} {e e' : ℤ} (hm : 0 < m) (hm' : 0 < m')
    (hc : Canonical m e) (hc' : Canonical m' e') (h : Rounds q m e) (h' : Rounds q' m' e')
    (hq : q ≤ q') : (m : ℚ) * 2 ^ e ≤ m' * 2 ^ e' := by
  by_contra hlt
  rw [not_le] at hlt
  have hunit : (0 : ℚ) < 2 ^ e := zpow_pos two_pos e
  have hunit' : (0 : ℚ) < 2 ^ e' := zpow_pos two_pos e'
  have hge : q' ≤ q := by
    have hbelow : ((interval m e).below : ℚ) * 2 ^ e ≤ 4 * q := by
      rw [← le_div_iff₀ hunit, mul_div_assoc]
      exact h.1
    have habove : 4 * q' ≤ ((interval m' e').above : ℚ) * 2 ^ e' := by
      rw [← div_le_iff₀ hunit', mul_div_assoc]
      exact h'.2.1
    have := above_le_below hm hc' hc hlt
    linarith
  -- Only the same rational is left, and this rounds to one double.
  obtain rfl := le_antisymm hq hge
  obtain ⟨rfl, rfl⟩ := h.unique hm hm' hc hc' h'
  exact lt_irrefl _ hlt

end Double

end TaintWeave
