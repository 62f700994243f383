import TaintWeave.Proofs.Number.Division
import TaintWeave.Proofs.Outcome

/-!
# Arithmetic

The operands of an arithmetic operator are converted to numbers that the language can hold, and its
result is one again: an integer beyond the limit is rounded on the spot, a quotient is an integer
only if it is exact, and a remainder is not larger than its dividend. What stays below the limit
is not rounded at all, so that operations on safe integers are those on integers.

* `Number.held_of_toNumber`: the number of a value is one that the language can hold.
* `Number.held_div`, `Number.held_remainder`: and so are a quotient and a remainder of such.
* `Number.isRemainder_iff`: there is one remainder with the sign of the dividend.
* `Value.arithmetic_int`: operations on safe integers with a safe result.
* `Value.arithmetic_exact`: the results of all arithmetic operators.
-/

namespace TaintWeave

namespace Number

variable {x y : Number} {a b : ℤ}

/-! ## Results -/

/-- The number that a numeral denotes can be held. -/
theorem held_numeral {n : Numeral} (h : n.value = .ok x) : x.Held := by
  cases n with
  | empty =>
    cases h
    exact Nat.zero_le _
  | radix k =>
    cases h
    exact held_ofInt k
  | whole negative digits =>
    rw [Numeral.value] at h
    split at h
    · cases h
      exact held_ofInt _
    · cases h
  | infinity _ | decimal _ _ | none =>
    cases h
    trivial

/-- The number of a value can be held. -/
theorem held_of_toNumber {v : Value} (h : v.toNumber = .ok x) : x.Held := by
  cases v with
  | undefined =>
    cases h
    trivial
  | null =>
    cases h
    exact Nat.zero_le _
  | boolean b =>
    cases h
    have hle : (if b then (1 : ℤ) else 0).natAbs ≤ 2 ^ 53 := by cases b <;> decide
    exact hle
  | number n =>
    cases h
    exact held_normalize n
  | _ => exact held_numeral h

/-- Whether an operation on numbers is one on integers if both operands are such, and comes to a
    double else. -/
structure Extends (f : ℤ → ℤ → ℤ) (op : Number → Number → Number) : Prop where
  /-- On integers. -/
  integers (m n : ℤ) : op (int m) (int n) = ofInt (f m n)
  /-- On other operands. -/
  others (x y : Number) : (∃ m n, x = int m ∧ y = int n) ∨ ∃ z, op x y = float z

theorem extends_add : Extends (· + ·) add where
  integers _ _ := rfl
  others x y := by
    cases x <;> cases y
    exacts [.inl ⟨_, _, rfl, rfl⟩, .inr ⟨_, rfl⟩, .inr ⟨_, rfl⟩, .inr ⟨_, rfl⟩]

theorem extends_sub : Extends (· - ·) sub where
  integers _ _ := rfl
  others x y := by
    cases x <;> cases y
    exacts [.inl ⟨_, _, rfl, rfl⟩, .inr ⟨_, rfl⟩, .inr ⟨_, rfl⟩, .inr ⟨_, rfl⟩]

theorem extends_mul : Extends (· * ·) mul where
  integers _ _ := rfl
  others x y := by
    cases x <;> cases y
    exacts [.inl ⟨_, _, rfl, rfl⟩, .inr ⟨_, rfl⟩, .inr ⟨_, rfl⟩, .inr ⟨_, rfl⟩]

section

variable {f : ℤ → ℤ → ℤ} {op : Number → Number → Number}

/-- The result of such an operation can be held. -/
theorem Extends.held (h : Extends f op) (x y : Number) : (op x y).Held := by
  rcases h.others x y with ⟨m, n, rfl, rfl⟩ | ⟨z, hz⟩
  · rw [h.integers]
    exact held_ofInt _
  · rw [hz]
    trivial

/-- On integers it is exact as long as its result is safe. -/
theorem Extends.apply_int (h : Extends f op) (hsafe : (f a b).natAbs ≤ 2 ^ 53) :
    op (.int a) (.int b) = .int (f a b) := by
  rw [h.integers]
  exact if_pos hsafe

end

/-- A quotient of numbers that can be held can be held. -/
theorem held_div (hx : x.Held) (hy : y.Held) : (x.div y).Held := by
  cases x with
  | int a =>
    cases y with
    | int b =>
      rcases eq_or_ne b 0 with rfl | hne
      · have hdouble : (int a).div (int 0) = float ((Double.ofInt a).div (Double.zero false)) :=
          if_neg (Bool.eq_false_iff.1 (Double.isInteger_div_zero _ _))
        rw [hdouble]
        trivial
      by_cases h : b ∣ a
      · obtain ⟨k, hk⟩ := h
        rw [div_int_of_dvd hx hy hne hk]
        exact (Double.natAbs_le_of_eq_mul hne hk).trans hx
      · rw [div_int_of_not_dvd hx hy hne h]
        trivial
    | float y => trivial
  | float x => trivial

/-- A remainder of a number that can be held can be held. -/
theorem held_remainder (hx : x.Held) (y : Number) : (x.remainder y).Held := by
  cases y with
  | int b =>
    cases x with
    | int a =>
      rw [remainder]
      split
      · trivial
      · exact (Int.natAbs_tmod a b).trans_le ((Nat.mod_le _ _).trans hx)
    | float x => trivial
  | float y =>
    rw [remainder]
    split
    · exact hx
    · trivial

/-! ## Remainders -/

/-- Whether an integer is a remainder of a division, and has the sign of the dividend. -/
structure IsRemainder (a b r : ℤ) : Prop where
  /-- The rest of the dividend is a multiple of the divisor. -/
  multiple : ∃ q, a = b * q + r
  /-- It is less than the divisor, by absolute value. -/
  small : r.natAbs < b.natAbs
  /-- It is zero or has the sign of the dividend. -/
  sign : r = 0 ∨ r.sign = a.sign

variable {k l : ℤ}

theorem IsRemainder.nonneg (h : IsRemainder a b k) (ha : 0 ≤ a) : 0 ≤ k := by
  rcases h.sign with rfl | hsign
  · rfl
  · rwa [← Int.sign_nonneg_iff, hsign, Int.sign_nonneg_iff]

theorem IsRemainder.nonpos (h : IsRemainder a b k) (ha : a ≤ 0) : k ≤ 0 := by
  rcases h.sign with rfl | hsign
  · rfl
  · rwa [← Int.sign_nonpos_iff, hsign, Int.sign_nonpos_iff]

/-- There is one such remainder. -/
theorem IsRemainder.unique (h : IsRemainder a b k) (h' : IsRemainder a b l) : k = l := by
  have hdvd : b ∣ k - l := by
    obtain ⟨q, hq⟩ := h.multiple
    obtain ⟨q', hq'⟩ := h'.multiple
    exact ⟨q' - q, by linarith⟩
  have hsmall : (k - l).natAbs < b.natAbs := by
    have hk := h.small
    have hl := h'.small
    rcases le_total 0 a with ha | ha
    · have := h.nonneg ha
      have := h'.nonneg ha
      omega
    · have := h.nonpos ha
      have := h'.nonpos ha
      omega
  exact sub_eq_zero.1 (Int.eq_zero_of_dvd_of_natAbs_lt_natAbs hdvd hsmall)

/-- It is that of the division rounded toward zero. -/
theorem isRemainder_iff (hne : b ≠ 0) : IsRemainder a b k ↔ k = a.tmod b := by
  have htmod : IsRemainder a b (a.tmod b) := by
    refine ⟨⟨a.tdiv b, (Int.mul_tdiv_add_tmod a b).symm⟩, ?_, ?_⟩
    · rw [Int.natAbs_tmod]
      exact Nat.mod_lt _ (Int.natAbs_pos.2 hne)
    · rw [← Int.sign_eq_zero_iff_zero, Int.sign_tmod]
      split
      · exact .inl rfl
      · exact .inr rfl
  constructor
  · intro h
    exact h.unique htmod
  · rintro rfl
    exact htmod

/-- The remainder of a division of integers. -/
theorem remainder_int (hne : b ≠ 0) : (int a).remainder (int b) = int (a.tmod b) := if_neg hne

end Number

/-! ## The operators -/

namespace Value

open Number

variable {x y : Number} {v w r : Value}

/-- Whether a value is a number that the language can hold. -/
def IsHeld (v : Value) : Prop := ∃ x : Number, v = number x ∧ x.Held

/-- An operation that can be held on numbers that can be held comes to one on all values. -/
theorem isHeld_of_arithmetic {f : Number → Number → Number}
    (hf : ∀ x y, x.Held → y.Held → (f x y).Held) (h : v.arithmetic f w = .ok r) : r.IsHeld := by
  obtain ⟨x, hx, h⟩ := bind_eq_ok.1 h
  obtain ⟨y, hy, h⟩ := bind_eq_ok.1 h
  cases h
  exact ⟨_, rfl, hf x y (held_of_toNumber hx) (held_of_toNumber hy)⟩

/-- What is not of the type of texts has no characters. -/
theorem text?_eq_none (h : v.kind ≠ .text) : v.text? = none := by
  cases v with
  | text _ | symbol _ => exact absurd rfl h
  | _ => rfl

/-- The sum of two values can be held, if no primitive form of them is a text. -/
theorem isHeld_of_add (hv : v.toPrimitive.kind ≠ .text) (hw : w.toPrimitive.kind ≠ .text)
    (h : v.add w = .ok r) : r.IsHeld := by
  rw [add, text?_eq_none hv, text?_eq_none hw] at h
  obtain ⟨x, -, h⟩ := bind_eq_ok.1 h
  obtain ⟨y, -, h⟩ := bind_eq_ok.1 h
  cases h
  exact ⟨_, rfl, extends_add.held x y⟩

/-- On safe integers an operation is exact as long as its result is safe. -/
theorem arithmetic_int {f : ℤ → ℤ → ℤ} {op : Number → Number → Number} {a b : ℤ}
    (h : Extends f op) (ha : a.natAbs ≤ 2 ^ 53) (hb : b.natAbs ≤ 2 ^ 53)
    (hsafe : (f a b).natAbs ≤ 2 ^ 53) : (int a).arithmetic op (int b) = .ok (int (f a b)) := by
  rw [int, int, arithmetic_eq (x := .int a) (y := .int b) ha hb, h.apply_int hsafe, int]

/-- Adding one to a number and taking one away. -/
theorem step_eq (evaluator : Evaluator) (hx : x.Held) :
    UnaryNative.increment.apply evaluator (number x) = .ok (number (x.add (.int 1))) ∧
      UnaryNative.decrement.apply evaluator (number x) = .ok (number (x.sub (.int 1))) := by
  rw [UnaryNative.apply, UnaryNative.apply, hx.toNumber_eq]
  exact ⟨rfl, rfl⟩

open UnaryNative BinaryNative

/-- What an arithmetic operator comes to is a number that the language can hold, unless texts are
    added. On safe integers the sum, the difference and the product are exact as long as they are
    safe themselves, the remainder is the one with the sign of the dividend, and adding one is undone
    by taking one away. -/
theorem arithmetic_exact (evaluator : Evaluator) :
    (∀ op ∈ [subtract, multiply, divide, modulus], ∀ v w r : Value,
      op.apply v w = .ok r → r.IsHeld) ∧
    (∀ v w r : Value, v.toPrimitive.kind ≠ .text → w.toPrimitive.kind ≠ .text →
      BinaryNative.add.apply v w = .ok r → r.IsHeld) ∧
    (∀ op ∈ [increment, decrement], ∀ v r : Value, op.apply evaluator v = .ok r → r.IsHeld) ∧
    ∀ a b : ℤ, a.natAbs ≤ 2 ^ 53 → b.natAbs ≤ 2 ^ 53 →
      ((a + b).natAbs ≤ 2 ^ 53 → BinaryNative.add.apply (int a) (int b) = .ok (int (a + b))) ∧
      ((a - b).natAbs ≤ 2 ^ 53 → subtract.apply (int a) (int b) = .ok (int (a - b))) ∧
      ((a * b).natAbs ≤ 2 ^ 53 → multiply.apply (int a) (int b) = .ok (int (a * b))) ∧
      (b ≠ 0 → ∃ r, modulus.apply (int a) (int b) = .ok (int r) ∧
        ∀ k, IsRemainder a b k ↔ k = r) ∧
      (a < 2 ^ 53 → (increment.apply evaluator (int a)).bind (decrement.apply evaluator ·) =
        .ok (int a)) := by
  refine ⟨?_, fun v w r hv hw => isHeld_of_add hv hw, ?_, ?_⟩
  · simp only [List.forall_mem_cons]
    refine ⟨fun v w r => isHeld_of_arithmetic fun x y _ _ => extends_sub.held x y,
      fun v w r => isHeld_of_arithmetic fun x y _ _ => extends_mul.held x y,
      fun v w r => isHeld_of_arithmetic fun x y => held_div,
      fun v w r => isHeld_of_arithmetic fun x y hx _ => held_remainder hx y, ?_⟩
    exact List.forall_mem_nil _
  · simp only [List.forall_mem_cons]
    refine ⟨fun v r h => ?_, fun v r h => ?_, List.forall_mem_nil _⟩
    · obtain ⟨x, -, h⟩ := bind_eq_ok.1 h
      cases h
      exact ⟨_, rfl, extends_add.held x _⟩
    · obtain ⟨x, -, h⟩ := bind_eq_ok.1 h
      cases h
      exact ⟨_, rfl, extends_sub.held x _⟩
  · intro a b ha hb
    refine ⟨fun h => ?_, fun h => ?_, fun h => ?_, fun hne => ⟨a.tmod b, ?_, fun k =>
      isRemainder_iff hne⟩, fun hlt => ?_⟩
    · exact arithmetic_int extends_add ha hb h
    · exact arithmetic_int extends_sub ha hb h
    · exact arithmetic_int extends_mul ha hb h
    · have heq : modulus.apply (int a) (int b) = _ :=
        arithmetic_eq (x := .int a) (y := .int b) ha hb Number.remainder
      rw [heq, remainder_int hne, int]
    · have hnext : (a + 1).natAbs ≤ 2 ^ 53 := by omega
      have hsafe : (a + 1 - 1).natAbs ≤ 2 ^ 53 := by omega
      have hincrement := (step_eq (x := .int a) evaluator ha).1
      have hdecrement := (step_eq (x := .int (a + 1)) evaluator hnext).2
      rw [extends_add.apply_int hnext] at hincrement
      rw [extends_sub.apply_int hsafe, add_sub_cancel_right] at hdecrement
      rw [int, hincrement]
      exact hdecrement

/-- The text of the first integer that is no double counts as a double in a product; the sum of
    `null` and `undefined` is a number, and so is what is one less than a text. At the limit a sum is
    exact, the remainder of a negative dividend is the negative one, and adding one is undone. -/
theorem arithmetic_exact_limit :
    (∃ r, multiply.apply (.text "9007199254740993") (.boolean true) = .ok r ∧ r.IsHeld) ∧
      (∃ r, BinaryNative.add.apply null undefined = .ok r ∧ r.IsHeld) ∧
      (∃ r, decrement.apply (fun code => .ok (.text code)) (.text "x") = .ok r ∧ r.IsHeld) ∧
      BinaryNative.add.apply (int (2 ^ 53 - 1)) (int 1) = .ok (int (2 ^ 53)) ∧
      (∃ r, modulus.apply (int (-2 ^ 53)) (int 3) = .ok (int r) ∧
        ∀ k, IsRemainder (-2 ^ 53) 3 k ↔ k = r) ∧
      (increment.apply (fun code => .ok (.text code)) (int (2 ^ 53 - 1))).bind
        (decrement.apply (fun code => .ok (.text code)) ·) = .ok (int (2 ^ 53 - 1)) := by
  obtain ⟨hbinary, hsum, hunary, hsafe⟩ := arithmetic_exact fun code => .ok (.text code)
  have hlimit := hsafe (2 ^ 53 - 1) 1 (by decide) (by decide)
  exact ⟨⟨_, rfl, hbinary multiply (by decide) (.text "9007199254740993") (.boolean true) _ rfl⟩,
    ⟨_, rfl, hsum null undefined _ (by decide) (by decide) rfl⟩,
    ⟨_, rfl, hunary decrement (by decide) (.text "x") _ rfl⟩,
    hlimit.1 (by decide),
    (hsafe (-2 ^ 53) 3 (by decide) (by decide)).2.2.2.1 (by decide),
    hlimit.2.2.2.2 (by decide)⟩

end Value

end TaintWeave
