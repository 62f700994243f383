import Mathlib.Order.WithBot
import TaintWeave.Native
import TaintWeave.Proofs.Double.Whole

/-!
# The order of numbers

A number lies somewhere among the rationals and the two infinities, whichever of its representations
it has, and a NaN lies nowhere (`Number.position?`). Two numbers are equal if they lie in the same
place. Less is decided after rounding to a double, which changes no number that the language can
hold (`Number.Held`), so that for these it is the order of the places, a total one.

The relational operators take the numbers that the language holds for their operands; strict equality
takes the operands as they are. So two integers that the same double is nearest to are neither less
nor greater nor equal, although the language has one number for them. Nothing else is in the way of
a total order (`Number.ordered_iff`).

* `Double.equal_iff`, `Double.less_iff`: comparison of doubles by their places.
* `Number.equal_iff`, `Number.less_iff`: the same for numbers.
* `Number.equal_normalize`: numbers that are equal are held as equal ones.
* `Number.ordered_iff`: when the operators order two numbers.
-/

namespace TaintWeave

/-- A place among the rationals and the two infinities. -/
abbrev Position := WithBot (WithTop ℚ)

namespace Position

/-- The place of a rational. -/
def rat (q : ℚ) : Position := WithBot.some (WithTop.some q)

variable {q r : ℚ}

@[simp] theorem rat_inj : rat q = rat r ↔ q = r := by
  rw [rat, rat, WithBot.coe_inj, WithTop.coe_inj]

@[simp] theorem rat_lt_rat : rat q < rat r ↔ q < r := by
  rw [rat, rat, WithBot.coe_lt_coe, WithTop.coe_lt_coe]

@[simp] theorem bot_lt_rat : ⊥ < rat q := WithBot.bot_lt_coe _

@[simp] theorem rat_lt_top : rat q < ⊤ := WithBot.coe_lt_coe.2 (WithTop.coe_lt_top q)

@[simp] theorem bot_ne_rat : ⊥ ≠ rat q := bot_lt_rat.ne

@[simp] theorem top_ne_rat : ⊤ ≠ rat q := rat_lt_top.ne'

@[simp] theorem rat_ne_bot : rat q ≠ ⊥ := bot_lt_rat.ne'

@[simp] theorem rat_ne_top : rat q ≠ ⊤ := rat_lt_top.ne

end Position

open Position

namespace Double

/-- Where a double lies; a NaN lies nowhere. -/
def position? : Double → Option Position
  | .nan => none
  | .infinite negative => some (if negative then ⊥ else ⊤)
  | .finite negative m e hc => some (rat (finite negative m e hc).toRat)

/-- Doubles are equal if they lie in the same place. -/
theorem equal_iff {x y : Double} :
    x.equal y = true ↔ ∃ p, x.position? = some p ∧ y.position? = some p := by
  cases x with
  | nan => simp [equal, position?]
  | infinite s =>
    cases y with
    | nan => simp [equal, position?]
    | infinite t => cases s <;> cases t <;> simp [equal, position?]
    | finite _ _ _ _ => cases s <;> simp [equal, position?]
  | finite _ _ _ _ =>
    cases y with
    | nan => simp [equal, position?]
    | infinite t => cases t <;> simp [equal, position?]
    | finite _ _ _ _ => simpa [equal, position?] using eq_comm

/-- A double is less than another one if it lies before it. -/
theorem less_iff {x y : Double} :
    x.less y = true ↔ ∃ p q, x.position? = some p ∧ y.position? = some q ∧ p < q := by
  cases x with
  | nan => simp [less, position?]
  | infinite s =>
    cases y with
    | nan => simp [less, position?]
    | infinite t => cases s <;> cases t <;> simp [less, position?]
    | finite _ _ _ _ => cases s <;> simp [less, position?]
  | finite _ _ _ _ =>
    cases y with
    | nan => simp [less, position?]
    | infinite t => cases t <;> simp [less, position?]
    | finite _ _ _ _ => simp [less, position?]

/-- Only the NaN lies nowhere. -/
theorem exists_position {x : Double} (h : x.isNaN = false) : ∃ p, x.position? = some p := by
  cases x with
  | nan => cases h
  | infinite _ | finite _ _ _ _ => exact ⟨_, rfl⟩

/-- A double lies where an integer does if it is whole and this is its integer part. -/
theorem position?_eq_int_iff {x : Double} {n : ℤ} :
    x.position? = some (rat n) ↔ (x.isInteger && x.truncate == n) = true := by
  cases x with
  | nan => simp [position?, isInteger]
  | infinite s => cases s <;> simp [position?, isInteger]
  | finite s m e hc =>
    rw [position?, isInteger, truncate]
    generalize (finite s m e hc).toRat = q
    simp only [Option.some.injEq, rat_inj, Bool.and_eq_true, beq_iff_eq]
    constructor
    · rintro rfl
      simp
    · rintro ⟨hden, htruncate⟩
      rw [hden, Nat.cast_one, Int.tdiv_one] at htruncate
      rw [← htruncate, Rat.coe_int_num_of_den_eq_one hden]

end Double

namespace Number

/-- Where a number lies; a NaN lies nowhere. -/
def position? : Number → Option Position
  | int n => some (rat n)
  | float x => x.position?

/-- Numbers are equal if they lie in the same place. -/
theorem equal_iff {x y : Number} :
    x.equal y = true ↔ ∃ p, x.position? = some p ∧ y.position? = some p := by
  cases x with
  | int m =>
    cases y with
    | int n => simpa [equal, position?] using eq_comm
    | float y => simp [equal, position?, Double.position?_eq_int_iff]
  | float x =>
    cases y with
    | int n => simp [equal, position?, Double.position?_eq_int_iff]
    | float y => exact Double.equal_iff

/-- Only a NaN lies nowhere. -/
theorem exists_position {x : Number} (h : x.isNaN = false) : ∃ p, x.position? = some p := by
  cases x with
  | int n => exact ⟨_, rfl⟩
  | float x => exact Double.exists_position h

/-! ## Numbers of the language -/

/-- Whether a number is one that the language can hold: a safe integer, or a double. -/
def Held : Number → Prop
  | int n => n.natAbs ≤ 2 ^ 53
  | float _ => True

/-- An integer is held as itself if it is safe. -/
theorem held_ofInt (n : ℤ) : (ofInt n).Held := by
  rw [ofInt]
  split
  · assumption
  · trivial

/-- What is held for a number is held as it is. -/
theorem held_normalize (x : Number) : x.normalize.Held := by
  cases x with
  | int n => exact held_ofInt n
  | float x => trivial

/-- A number that the language can hold stays as it is. -/
theorem Held.normalize_eq {x : Number} (h : x.Held) : x.normalize = x := by
  cases x with
  | int n => exact if_pos h
  | float x => rfl

/-- A number that the language can hold is the number of itself. -/
theorem Held.toNumber_eq {x : Number} (h : x.Held) : (Value.number x).toNumber = .ok x :=
  congrArg Except.ok h.normalize_eq

/-- The double of a number that the language can hold lies where the number does. -/
theorem Held.position?_toDouble {x : Number} (h : x.Held) :
    x.toDouble.position? = x.position? := by
  cases x with
  | int n =>
    obtain ⟨m, e, hc, hdouble, hrat⟩ := Double.exists_ofInt h
    rw [toDouble, hdouble, Double.position?, hrat]
    rfl
  | float x => rfl

/-- A number that the language can hold is less than another one if it lies before it. -/
theorem less_iff {x y : Number} (hx : x.Held) (hy : y.Held) :
    x.less y = true ↔ ∃ p q, x.position? = some p ∧ y.position? = some q ∧ p < q := by
  have hdoubles := Double.less_iff (x := x.toDouble) (y := y.toDouble)
  rw [hx.position?_toDouble, hy.position?_toDouble] at hdoubles
  cases x with
  | int m =>
    cases y with
    | int n => simp [less, position?]
    | float y => exact hdoubles
  | float x => cases y <;> exact hdoubles

/-- A number that is no NaN is not held as one. -/
theorem normalize_isNaN {x : Number} (h : x.isNaN = false) : x.normalize.isNaN = false := by
  cases x with
  | int n =>
    rw [normalize, ofInt]
    split
    · rfl
    · exact Double.ofRatio_isNaN _ _ _
  | float x => exact h

/-- An integer that is a double is held where it lies. -/
theorem position?_normalize_int {n : ℤ} {x : Double}
    (h : x.position? = some (rat n)) : (int n).normalize.position? = x.position? := by
  rw [normalize, ofInt]
  split
  · exact h.symm
  · rename_i hlarge
    cases x with
    | nan => cases h
    | infinite s => cases s <;> simp [Double.position?] at h
    | finite negative m e hc =>
      have hrat : (Double.finite negative m e hc).toRat = n := by simpa [Double.position?] using h
      have hm : 0 < m := by
        refine Nat.pos_of_ne_zero fun hzero => hlarge ?_
        subst hzero
        rw [Double.toRat_finite] at hrat
        have : n = 0 := by simpa [eq_comm] using hrat
        simp [this]
      rw [Double.ofInt_of_toRat hm hc hrat]
      rfl

/-- Numbers that are equal are held as equal ones. -/
theorem equal_normalize {x y : Number} (h : x.equal y = true) :
    x.normalize.equal y.normalize = true := by
  rw [equal_iff] at h ⊢
  obtain ⟨p, hx, hy⟩ := h
  cases x with
  | int m =>
    cases y with
    | int n =>
      obtain rfl : m = n := by simpa [position?] using hx.trans hy.symm
      obtain ⟨p, hp⟩ := exists_position (normalize_isNaN (x := int m) rfl)
      exact ⟨p, hp, hp⟩
    | float y => exact ⟨p, (position?_normalize_int (hy.trans hx.symm)).trans hy, hy⟩
  | float x =>
    cases y with
    | int n => exact ⟨p, hx, (position?_normalize_int (hx.trans hy.symm)).trans hx⟩
    | float y => exact ⟨p, hx, hy⟩

/-- An integer before the limit is equal to a number if it is equal to what is held for that. -/
theorem equal_normalize_of_lt {k : ℤ} (hk : k.natAbs < 2 ^ 53) (x : Number) :
    (int k).equal x.normalize = (int k).equal x := by
  cases x with
  | float x => rfl
  | int n =>
    rw [normalize, ofInt]
    split
    · rfl
    · -- Beyond the limit, no double comes back before it.
      rename_i hlarge
      have hne : (int k).equal (int n) = false := by
        refine beq_eq_false_iff_ne.2 ?_
        rintro rfl
        exact hlarge hk.le
      rw [hne, Bool.eq_false_iff, Ne, equal_iff]
      rintro ⟨p, hk', hn⟩
      cases hdouble : Double.ofInt n with
      | nan =>
        rw [position?, hdouble] at hn
        cases hn
      | infinite s =>
        rw [position?, hdouble, ← hk'] at hn
        cases s <;> simp [Double.position?, position?] at hn
      | finite s m e hc =>
        rw [position?, hdouble, ← hk'] at hn
        have hrat : (Double.finite s m e hc).toRat = k := by
          simpa [Double.position?, position?] using hn
        have hle := Double.le_abs_toRat_ofInt (not_le.1 hlarge).le hdouble
        rw [hrat, ← Int.cast_abs, Int.abs_eq_natAbs, Int.cast_natCast] at hle
        have hle' : 2 ^ 53 ≤ k.natAbs := by exact_mod_cast hle
        exact absurd hle' (not_le.2 hk)

end Number

/-! ## The operators -/

/-- Whether an operator on two operands comes to true. -/
def BinaryNative.Holds (op : BinaryNative) (v w : Value) : Prop :=
  op.apply v w = .ok (.boolean true)

namespace Value

open BinaryNative

/-- Whether the relational operators order two values in a way that strict equality agrees with. -/
structure Ordered (v w : Value) : Prop where
  /-- Exactly one of less, equal and greater is true. -/
  exactly_one :
    (lesser.Holds v w ∧ ¬tripleEqual.Holds v w ∧ ¬greater.Holds v w) ∨
    (¬lesser.Holds v w ∧ tripleEqual.Holds v w ∧ ¬greater.Holds v w) ∨
    (¬lesser.Holds v w ∧ ¬tripleEqual.Holds v w ∧ greater.Holds v w)
  /-- Less or equal is true if one of the two is. -/
  lesserEqual_iff : lesserEqual.Holds v w ↔ lesser.Holds v w ∨ tripleEqual.Holds v w
  /-- Greater or equal is true if one of the two is. -/
  greaterEqual_iff : greaterEqual.Holds v w ↔ greater.Holds v w ∨ tripleEqual.Holds v w

end Value

namespace Number

open Value BinaryNative

variable {a b : Number}

/-- Two numbers are compared as the language holds them. -/
theorem compare_eq (ha : a.isNaN = false) (hb : b.isNaN = false) :
    (number a).compare (number b) = .ok (some (a.normalize.less b.normalize)) := by
  have hnone : (a.normalize.isNaN || b.normalize.isNaN) = false := by
    rw [normalize_isNaN ha, normalize_isNaN hb]
    rfl
  exact congrArg Except.ok (if_neg (by simp [hnone]))

/-- A relational operator comes to true if its outcome is that of the comparison. -/
theorem compares_eq (ha : a.isNaN = false) (hb : b.isNaN = false) (outcome : Bool) :
    (number a).compares outcome (number b) =
      .ok (.boolean (a.normalize.less b.normalize == outcome)) := by
  rw [compares, compare_eq ha hb]
  rfl

theorem lesser_holds_iff (ha : a.isNaN = false) (hb : b.isNaN = false) :
    lesser.Holds (number a) (number b) ↔ a.normalize.less b.normalize = true := by
  rw [Holds, apply, compares_eq ha hb]
  simp

theorem greater_holds_iff (ha : a.isNaN = false) (hb : b.isNaN = false) :
    greater.Holds (number a) (number b) ↔ b.normalize.less a.normalize = true := by
  rw [Holds, apply, compares_eq hb ha]
  simp

theorem lesserEqual_holds_iff (ha : a.isNaN = false) (hb : b.isNaN = false) :
    lesserEqual.Holds (number a) (number b) ↔ ¬b.normalize.less a.normalize = true := by
  rw [Holds, apply, compares_eq hb ha]
  simp

theorem greaterEqual_holds_iff (ha : a.isNaN = false) (hb : b.isNaN = false) :
    greaterEqual.Holds (number a) (number b) ↔ ¬a.normalize.less b.normalize = true := by
  rw [Holds, apply, compares_eq ha hb]
  simp

theorem tripleEqual_holds_iff :
    tripleEqual.Holds (number a) (number b) ↔ a.equal b = true := by
  rw [Holds, apply, strictEqual]
  simp

/-- Of two numbers that the language can hold, one is less, or they are equal. -/
theorem Held.trichotomy (ha : a.Held) (hb : b.Held) (ha' : a.isNaN = false)
    (hb' : b.isNaN = false) :
    (a.less b = true ∧ ¬a.equal b = true ∧ ¬b.less a = true) ∨
    (¬a.less b = true ∧ a.equal b = true ∧ ¬b.less a = true) ∨
    (¬a.less b = true ∧ ¬a.equal b = true ∧ b.less a = true) := by
  obtain ⟨p, hp⟩ := exists_position ha'
  obtain ⟨q, hq⟩ := exists_position hb'
  have hless : a.less b = true ↔ p < q := by simp [less_iff ha hb, hp, hq]
  have hgreater : b.less a = true ↔ q < p := by simp [less_iff hb ha, hp, hq]
  have hequal : a.equal b = true ↔ p = q := by simpa [equal_iff, hp, hq] using eq_comm
  rw [hless, hequal, hgreater]
  rcases lt_trichotomy p q with h | h | h
  · exact .inl ⟨h, h.ne, h.asymm⟩
  · exact .inr (.inl ⟨h.not_lt, h, h.symm.not_lt⟩)
  · exact .inr (.inr ⟨h.asymm, h.ne', h⟩)

/-- Two numbers are ordered if those that are held for them are equal only if they are. -/
theorem ordered_iff_equal (ha : a.isNaN = false) (hb : b.isNaN = false) :
    Ordered (number a) (number b) ↔
      (a.normalize.equal b.normalize = true → a.equal b = true) := by
  have htrichotomy := (held_normalize a).trichotomy (held_normalize b) (normalize_isNaN ha)
    (normalize_isNaN hb)
  constructor
  · rintro ⟨hone, -, -⟩ hequal
    rw [lesser_holds_iff ha hb, greater_holds_iff ha hb, tripleEqual_holds_iff] at hone
    tauto
  · intro h
    have hequal : a.equal b = true ↔ a.normalize.equal b.normalize = true :=
      ⟨equal_normalize, h⟩
    refine ⟨?_, ?_, ?_⟩
    · rw [lesser_holds_iff ha hb, greater_holds_iff ha hb, tripleEqual_holds_iff, hequal]
      exact htrichotomy
    · rw [lesserEqual_holds_iff ha hb, lesser_holds_iff ha hb, tripleEqual_holds_iff, hequal]
      tauto
    · rw [greaterEqual_holds_iff ha hb, greater_holds_iff ha hb, tripleEqual_holds_iff, hequal]
      tauto

/-- The relational operators see two numbers as the language holds them, and order these in a way
    that strict equality agrees with. They do so with the numbers themselves exactly if these are
    strictly equal whenever they are held as equal ones. -/
theorem ordered_iff (ha : a.isNaN = false) (hb : b.isNaN = false) :
    (∀ op ∈ [lesser, greater, lesserEqual, greaterEqual],
      op.apply (number a) (number b) = op.apply (number a.normalize) (number b.normalize)) ∧
    Ordered (number a.normalize) (number b.normalize) ∧
    (Ordered (number a) (number b) ↔
      (tripleEqual.Holds (number a.normalize) (number b.normalize) →
        tripleEqual.Holds (number a) (number b))) := by
  have ha' := normalize_isNaN ha
  have hb' := normalize_isNaN hb
  have hleft := (held_normalize a).normalize_eq
  have hright := (held_normalize b).normalize_eq
  refine ⟨?_, ?_, ?_⟩
  · simp only [List.forall_mem_cons, apply, compares_eq ha hb, compares_eq hb ha,
      compares_eq ha' hb', compares_eq hb' ha', hleft, hright]
    simp
  · rw [ordered_iff_equal ha' hb', hleft, hright]
    exact id
  · rw [ordered_iff_equal ha hb, tripleEqual_holds_iff, tripleEqual_holds_iff]

/-- An integer that is no double is ordered with an infinity, and its double with the integer that
    this is. -/
theorem ordered_iff_successor :
    Ordered (number (.int (2 ^ 53 + 1))) (number (.float (.infinite true))) ∧
      Ordered (number (int (2 ^ 53 + 1)).normalize) (number (int (2 ^ 53)).normalize) :=
  ⟨(ordered_iff (a := .int (2 ^ 53 + 1)) (b := .float (.infinite true)) rfl rfl).2.2.2
      fun h => absurd (tripleEqual_holds_iff.1 h) (by decide +kernel),
    (ordered_iff (a := .int (2 ^ 53 + 1)) (b := .int (2 ^ 53)) rfl rfl).2.1⟩

/-- The first integer that is no double is neither less nor greater than the one before, which the
    language has for both, nor equal to it. -/
theorem not_ordered_successor : ¬Ordered (.int (2 ^ 53)) (.int (2 ^ 53 + 1)) := by
  intro h
  have := (ordered_iff_equal (a := int (2 ^ 53)) (b := int (2 ^ 53 + 1)) rfl rfl).1 h
  revert this
  decide +kernel

end Number

end TaintWeave
