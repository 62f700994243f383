import TaintWeave.Proofs.Double.Whole
import TaintWeave.Proofs.Number.Digits
import TaintWeave.Proofs.Number.Reading

/-!
# Numbers through text

A number is written and read back. What is read is again one of the two representations, not always
the one that was written: a double whose text has only digits is read as an integer, and one that is
safe stays an integer. It is the same number all the same. The digits of the text are an integer
that rounds to the double, and a safe integer is a double itself, so that nothing was rounded.

* `Number.toText_exact`: what the text of a number denotes, its notation, and what is read.
-/

namespace TaintWeave

/-! ## Writing -/

namespace Layout

open Numeral

variable {negative : Bool} {m : ℕ} {e : ℤ}

/-- A double whose decimal is whole, and not too large, is written as a whole numeral. -/
theorem whole_write (hm : m ≠ 0) (hc : Double.Canonical m e)
    (hwhole : 0 ≤ (Double.shortest m e).exponent) (hsmall : (Double.shortest m e).magnitude ≤ 20) :
    Whole negative (wholeDigits (Double.shortest m e))
      (ecma.write (.finite negative m e hc)).toList := by
  have hlarge : -6 ≤ (Double.shortest m e).magnitude := by
    rw [Decimal.magnitude_eq]
    omega
  have hbody : (ecma.writeDecimal (Double.shortest m e)).toList =
      wholeDigits (Double.shortest m e) := by
    rw [writeDecimal, if_pos ⟨hlarge, hsmall⟩, positional_whole hwhole]
    exact List.append_nil _
  rw [toList_write ecma hm hc, hbody]
  exact .intro (sign_minus negative) (digits_wholeDigits _)

/-- Any other double is written with a point or an exponent. -/
theorem not_whole_write (hm : m ≠ 0) (hc : Double.Canonical m e)
    (h : ¬(0 ≤ (Double.shortest m e).exponent ∧ (Double.shortest m e).magnitude ≤ 20))
    (negative' : Bool) (digits : List Char) :
    ¬Whole negative' digits (ecma.write (.finite negative m e hc)).toList := by
  intro hwhole
  obtain ⟨hpoint, hletter⟩ := hwhole.mem
  rw [toList_write ecma hm hc, writeDecimal] at hpoint hletter
  by_cases hmagnitude : ecma.leastPositional ≤ (Double.shortest m e).magnitude ∧
      (Double.shortest m e).magnitude ≤ ecma.greatestPositional
  · have hexponent : ¬0 ≤ (Double.shortest m e).exponent := fun hwhole => h ⟨hwhole, hmagnitude.2⟩
    rw [if_pos hmagnitude, positional, if_neg hexponent] at hpoint
    refine hpoint (List.mem_append_right _ ?_)
    split <;> simp
  · rw [if_neg hmagnitude, toList_scientific] at hletter
    exact hletter (by simp)

end Layout

namespace Number

open Numeral

/-- A double is equal to the integer that it is. -/
theorem equal_of_toRat {negative : Bool} {m : ℕ} {e k : ℤ} {hc : Double.Canonical m e}
    (h : (Double.finite negative m e hc).toRat = k) :
    (int k).equal (.float (.finite negative m e hc)) = true := by
  rw [equal, Double.isInteger, Double.truncate, h]
  simp

/-- A double is equal to itself, but for the NaN. -/
theorem equal_self {x : Double} (h : x.isNaN = false) : (float x).equal (.float x) = true := by
  cases x with
  | nan => cases h
  | infinite negative => simp [equal, Double.equal]
  | finite negative m e hc => simp [equal, Double.equal]

/-- An integer that rounds to a double is equal to it, as a number of the language: a safe one is
    the double, and for any other the double is taken. -/
theorem equal_ofInt_of_rounds {negative : Bool} {m n : ℕ} {e : ℤ} {hc : Double.Canonical m e}
    (hm : 0 < m) (h : Double.Rounds n m e) :
    (ofInt (signed negative n)).equal (.float (.finite negative m e hc)) = true := by
  have hn : 0 < n := by exact_mod_cast h.pos hm
  have habs : (signed negative n).natAbs = n := by cases negative <;> simp [signed]
  rw [ofInt, habs]
  split
  · rename_i hsafe
    refine equal_of_toRat ?_
    rw [Double.toRat_of_rounds_nat negative hsafe hm hc h, signed]
    cases negative <;> simp
  · have hsign : decide (signed negative n < 0) = negative := by
      cases negative <;> simp [signed, hn]
    have hdouble : Double.ofInt (signed negative n) = .finite negative m e hc := by
      rw [Double.ofInt, hsign, habs]
      exact Double.ofRatio_of_rounds hn one_pos hm hc (by simpa using h)
    rw [hdouble]
    exact equal_self rfl

/-- The text of a double is read as the same number. -/
theorem exists_toNumber_write {x : Double} (h : x.isNaN = false) :
    ∃ y, (Value.text (Layout.ecma.write x)).toNumber = .ok y ∧ y.equal (.float x) = true := by
  cases x with
  | nan => cases h
  | infinite negative => cases negative <;> exact ⟨_, rfl, rfl⟩
  | finite negative m e hc =>
    by_cases hm : m = 0
    · -- Zero is written without its sign.
      subst hm
      have htext : Layout.ecma.write (.finite negative 0 e hc) = "0" := by cases negative <;> rfl
      have hzero : Whole false ['0'] "0".toList := .intro .none ⟨by decide, digits_zeros 1⟩
      refine ⟨.int 0, ?_, equal_of_toRat ?_⟩
      · rw [htext]
        exact Value.toNumber_of_whole hzero (by decide)
      · rw [Double.toRat_finite]
        cases negative <;> simp
    · have hpos := Nat.pos_of_ne_zero hm
      have hrounds := Double.rounds_shortest hpos hc
      by_cases hwhole : 0 ≤ (Double.shortest m e).exponent ∧ (Double.shortest m e).magnitude ≤ 20
      · obtain ⟨hexponent, hmagnitude⟩ := hwhole
        refine ⟨_, Value.toNumber_of_whole (Layout.whole_write hm hc hexponent hmagnitude) ?_, ?_⟩
        · have := Layout.length_wholeDigits hexponent
          omega
        · rw [← Layout.number_wholeDigits hexponent] at hrounds
          exact equal_ofInt_of_rounds hpos hrounds
      · -- With a point or an exponent the text is read as a double, the one it was written for.
        refine ⟨_, Value.toNumber_of_decimal (Layout.denotes_write (.inl rfl) hm hc)
          (Layout.not_whole_write hm hc hwhole), ?_⟩
        rw [Double.ofRat_of_rounds negative hpos hc hrounds]
        exact equal_self rfl

/-- The text of a safe integer is read as this integer. -/
theorem toNumber_toString {n : ℤ} (h : n.natAbs ≤ safeLimit) :
    (Value.text (toString n)).toNumber = .ok (.int n) := by
  have htext : (toString n).toList =
      minus (decide (n < 0)) ++ Nat.toDigits 10 n.natAbs := by
    cases n with
    | ofNat k => exact String.toList_ofList
    | negSucc k =>
      rw [decide_eq_true (Int.negSucc_lt_zero k)]
      change ("-" ++ Nat.repr (k + 1)).toList = ['-'] ++ Nat.toDigits 10 (k + 1)
      rw [String.toList_append, Nat.repr]
      exact congrArg (['-'] ++ ·) String.toList_ofList
  have hwhole : Whole (decide (n < 0)) (Nat.toDigits 10 n.natAbs) (toString n).toList :=
    htext ▸ .intro (sign_minus _) (digits_toDigits _)
  have hlength : (Nat.toDigits 10 n.natAbs).length ≤ 4300 := by
    have hlt : n.natAbs < 10 ^ 16 := h.trans_lt (by decide)
    exact ((Decimal.digitCount_le_iff (by decide)).2 hlt).trans (by decide)
  rw [Value.toNumber_of_whole hwhole hlength, number_toDigits, signed_natAbs, ofInt, if_pos h]

/-- A number of the language is a safe integer or a double. -/
theorem normalize_cases {x : Number} (h : x.isNaN = false) :
    (∃ n : ℤ, n.natAbs ≤ safeLimit ∧ x.normalize = .int n) ∨
      ∃ y : Double, y.isNaN = false ∧ x.normalize = .float y := by
  cases x with
  | float y => exact .inr ⟨y, h, rfl⟩
  | int n =>
    rw [normalize, ofInt]
    split
    · rename_i hsafe
      exact .inl ⟨n, hsafe, rfl⟩
    · exact .inr ⟨_, Double.ofRatio_isNaN _ _ _, rfl⟩

/-- The text of a double but zero denotes one rational, the one that its text in a report denotes:
    that of the decimal with the fewest digits among those that the double is nearest to. The text
    is in plain notation from `10 ^ (-6)` to below `10 ^ 21`, and else in scientific notation.
    Whatever the number, but for a NaN, its text is read as a number equal to it. -/
theorem toText_exact :
    (∀ (negative : Bool) (m : ℕ) (e : ℤ) (hc : Double.Canonical m e), m ≠ 0 →
      let x := Double.finite negative m e hc
      (∃ d : Decimal,
        (∀ sign r, Denotes sign (Layout.plain.write x).toList r ↔
          sign = negative ∧ r = if negative then -d.toRat else d.toRat) ∧
        (∀ sign r, Denotes sign (float x).toText.toList r ↔
          sign = negative ∧ r = if negative then -d.toRat else d.toRat) ∧
        Double.ofDecimal negative d = x ∧
        ∀ d', Double.ofDecimal negative d' = x →
          Decimal.digitCount d.digits ≤ Decimal.digitCount d'.digits) ∧
      (Plain (float x).toText.toList ↔
        (Double.ofDecimal false ⟨1, -6⟩).toRat ≤ |x.toRat| ∧
          |x.toRat| < (Double.ofDecimal false ⟨1, 21⟩).toRat) ∧
      (Scientific (float x).toText.toList ↔ ¬Plain (float x).toText.toList)) ∧
    ∀ x : Number, x.isNaN = false → ∃ y, (Value.text x.toText).toNumber = .ok y ∧
      (Value.number y).strictEqual (.number x.normalize) = true := by
  constructor
  · intro negative m e hc hm x
    have hpos := Nat.pos_of_ne_zero hm
    have htext : (float x).toText = Layout.ecma.write x := x.toText_eq_write
    rw [htext]
    refine ⟨⟨Double.shortest m e, fun _ _ => (Layout.denotes_write (.inr rfl) hm hc).iff,
      fun _ _ => (Layout.denotes_write (.inl rfl) hm hc).iff,
      Double.ofDecimal_shortest negative hpos hc, fun d' hd' => ?_⟩,
      Layout.ecma_plain_iff hm hc, (Layout.plain_write_iff (.inl rfl) hm hc).2⟩
    exact Double.digitCount_shortest_le hpos hc (Double.rounds_of_ofDecimal hpos hd')
  · intro x hx
    rcases normalize_cases hx with ⟨n, hsafe, hn⟩ | ⟨y, hy, hn⟩
    · refine ⟨.int n, ?_, ?_⟩
      · rw [toText, hn]
        exact toNumber_toString hsafe
      · rw [hn]
        exact beq_self_eq_true n
    · obtain ⟨z, hz, hequal⟩ := exists_toNumber_write hy
      have htext : x.toText = Layout.ecma.write y := by
        rw [toText, hn]
        exact y.toText_eq_write
      refine ⟨z, ?_, ?_⟩
      · rw [htext]
        exact hz
      · rw [hn]
        exact hequal

/-- The double nearest to `10 ^ 21` is written with an exponent, and the first integer that is no
    double is read back as the double that it counts as. -/
theorem toText_exact_large :
    Scientific (float (.ofDecimal false ⟨1, 21⟩)).toText.toList ∧
      ∃ y, (Value.text (int (2 ^ 53 + 1)).toText).toNumber = .ok y ∧
        (Value.number y).strictEqual (.number (int (2 ^ 53 + 1)).normalize) = true := by
  have hdouble : Double.ofDecimal false ⟨1, 21⟩ =
      .finite false 7629394531250000 17 (by decide) := by
    decide +kernel
  have hshape := (toText_exact.1 false 7629394531250000 17 (by decide) (by decide)).2
  rw [← hdouble] at hshape
  exact ⟨hshape.2.2 fun hplain => (le_abs_self _).not_gt (hshape.1.1 hplain).2,
    toText_exact.2 (int (2 ^ 53 + 1)) rfl⟩

end Number

end TaintWeave
