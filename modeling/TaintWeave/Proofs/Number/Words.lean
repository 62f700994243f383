import Mathlib.Data.Int.Bitwise
import Mathlib.Data.Int.ModEq
import TaintWeave.Native
import TaintWeave.Proofs.Double.Exact
import TaintWeave.Proofs.Outcome

/-!
# Words as bit vectors

The bitwise operators and the shifts work on words of 32 bits. A word is an integer here, and the
operators are arithmetic: remainders, powers of two, bits of natural numbers. This is the arithmetic
of 32-bit vectors, for any operands that are numbers or become such: the word of a number is the one
signed integer of 32 bits that is congruent to it (`Word.ofInt_eq_iff`), and every operator gives
the signed value of the operation on vectors.

It does not matter whether the bits of a word are taken as 32, or as those of an integer whose sign
goes on forever to the left: on integers without a bound the operations give the same word.

* `Word.toInt_ofInt`: the word of an integer is the signed value of its vector.
* `Word.bitwise_toInt`, `Word.shiftLeft_toInt`, ..: the operators on vectors.
* `Word.ofInt_land`, ..: the operations on integers without a bound.
* `Value.words_exact`: all together, for the operators on values.
-/

namespace TaintWeave

namespace Word

/-! ## Words of integers -/

/-- The word of an integer is the signed value of its vector. -/
theorem toInt_ofInt (n : ℤ) : (BitVec.ofInt 32 n).toInt = ofInt n := BitVec.toInt_ofInt n

/-- The bits of an integer are those of its vector. -/
theorem toNat_ofInt (n : ℤ) : (BitVec.ofInt 32 n).toNat = bits n := BitVec.toNat_ofInt n

/-- The bits of a word are those of the vector. -/
theorem bits_toInt (a : BitVec 32) : bits a.toInt = a.toNat := by
  rw [← toNat_ofInt, BitVec.ofInt_toInt]

/-- The word of an integer is the only one of the range that is congruent to it. -/
theorem ofInt_eq_iff {n k : ℤ} :
    ofInt n = k ↔ -2 ^ 31 ≤ k ∧ k < 2 ^ 31 ∧ k ≡ n [ZMOD 2 ^ 32] := by
  rw [Int.modEq_comm, Int.modEq_iff_dvd]
  exact Int.bmod_eq_iff (pow2_pos 32)

/-- The bits of a word are the only natural number of the range that is congruent to it. -/
theorem toNat_eq_iff {a : BitVec 32} {k : ℤ} :
    0 ≤ k ∧ k < 2 ^ 32 ∧ k ≡ a.toInt [ZMOD 2 ^ 32] ↔ k = a.toNat := by
  have hcongr : (a.toNat : ℤ) ≡ a.toInt [ZMOD 2 ^ 32] := by
    rw [Int.modEq_comm, BitVec.toInt_eq_toNat_bmod]
    exact Int.bmod_emod
  have hbound : (a.toNat : ℤ) < 2 ^ 32 := by exact_mod_cast a.isLt
  constructor
  · rintro ⟨hnonneg, hlt, hk⟩
    have h := hk.trans hcongr.symm
    rwa [Int.ModEq, Int.emod_eq_of_lt hnonneg hlt,
      Int.emod_eq_of_lt (Int.natCast_nonneg _) hbound] at h
  · rintro rfl
    exact ⟨Int.natCast_nonneg _, hbound, hcongr⟩

/-! ## Operators on vectors -/

/-- A bitwise operation on words is the one on vectors, if their bits are combined alike. -/
theorem bitwise_toInt {f : ℕ → ℕ → ℕ} {g : BitVec 32 → BitVec 32 → BitVec 32}
    (h : ∀ a b, (g a b).toNat = f a.toNat b.toNat) (a b : BitVec 32) :
    bitwise f a.toInt b.toInt = (g a b).toInt := by
  rw [bitwise, bits_toInt, bits_toInt, ← h, ← toInt_ofInt, BitVec.ofInt_natCast,
    BitVec.ofNat_toNat, BitVec.setWidth_eq]

/-- The complement of a word is that of the vector. -/
theorem complement_toInt (a : BitVec 32) : complement a.toInt = (~~~a).toInt := by
  rw [complement, BitVec.toInt_eq_toNat_cond, BitVec.toInt_eq_toNat_cond, BitVec.toNat_not]
  have := a.isLt
  split <;> split <;> omega

/-- The distance of a shift is the number in the low five bits. -/
theorem distance_toInt (a : BitVec 32) : distance a.toInt = (a.setWidth 5).toNat := by
  rw [distance, bits_toInt, BitVec.toNat_setWidth]

/-- A word is shifted to the left like the vector. -/
theorem shiftLeft_toInt (a b : BitVec 32) :
    shiftLeft a.toInt b.toInt = (a <<< (b.setWidth 5).toNat).toInt := by
  rw [shiftLeft, distance_toInt, BitVec.toInt_shiftLeft, BitVec.toInt_eq_toNat_bmod, ofInt,
    Nat.shiftLeft_eq, Nat.cast_mul]
  exact Int.bmod_mul_bmod

/-- A word is shifted to the right like the vector, its sign filling the space. -/
theorem shiftRight_toInt (a b : BitVec 32) :
    shiftRight a.toInt b.toInt = (a.sshiftRight (b.setWidth 5).toNat).toInt := by
  rw [shiftRight, distance_toInt, BitVec.toInt_sshiftRight, Int.shiftRight_eq_div_pow]
  rfl

/-! ## Operations without a bound -/

/-- The bits of the vector of an integer are those of the integer. -/
theorem getLsbD_ofInt (n : ℤ) (i : ℕ) :
    (BitVec.ofInt 32 n).getLsbD i = (decide (i < 32) && n.testBit i) := by
  cases n with
  | ofNat m => rw [Int.ofNat_eq_natCast, BitVec.ofInt_natCast, BitVec.getLsbD_ofNat]; rfl
  | negSucc m =>
    rw [BitVec.ofInt_negSucc_eq_not_ofNat, BitVec.getLsbD_not, BitVec.getLsbD_ofNat, Int.testBit]
    cases decide (i < 32) <;> rfl

/-- An operation on the bits of integers without a bound gives the word of the operation on the
    vectors. -/
theorem ofInt_of_testBit {f : Bool → Bool → Bool} {g : BitVec 32 → BitVec 32 → BitVec 32} {k : ℤ}
    {a b : BitVec 32} (hk : ∀ i, k.testBit i = f (a.toInt.testBit i) (b.toInt.testBit i))
    (hg : ∀ i, i < 32 → (g a b).getLsbD i = f (a.getLsbD i) (b.getLsbD i)) :
    ofInt k = (g a b).toInt := by
  have hbits : ∀ (c : BitVec 32) (i : ℕ), i < 32 → c.getLsbD i = c.toInt.testBit i := by
    intro c i hi
    have h := getLsbD_ofInt c.toInt i
    rwa [BitVec.ofInt_toInt, decide_eq_true hi, Bool.true_and] at h
  rw [← toInt_ofInt]
  refine congrArg BitVec.toInt (BitVec.eq_of_getLsbD_eq fun i hi => ?_)
  rw [getLsbD_ofInt, hg i hi, hk, hbits a i hi, hbits b i hi, decide_eq_true hi, Bool.true_and]

theorem ofInt_land (a b : BitVec 32) : ofInt (a.toInt.land b.toInt) = (a &&& b).toInt :=
  ofInt_of_testBit (g := (· &&& ·)) (Int.testBit_land _ _) fun _ _ => BitVec.getLsbD_and

theorem ofInt_lor (a b : BitVec 32) : ofInt (a.toInt.lor b.toInt) = (a ||| b).toInt :=
  ofInt_of_testBit (g := (· ||| ·)) (Int.testBit_lor _ _) fun _ _ => BitVec.getLsbD_or

theorem ofInt_xor (a b : BitVec 32) : ofInt (a.toInt.xor b.toInt) = (a ^^^ b).toInt :=
  ofInt_of_testBit (g := (· ^^^ ·)) (Int.testBit_lxor _ _) fun _ _ => BitVec.getLsbD_xor

end Word

/-! ## Words of numbers -/

namespace Number

/-- The exact value of a number; the infinities and the NaN have none. -/
def rational? : Number → Option ℚ
  | int n => some n
  | float (.finite negative m e h) => some (Double.finite negative m e h).toRat
  | float .nan | float (.infinite _) => none

/-- A rational rounded toward zero. -/
def towardZero (q : ℚ) : ℤ := if 0 ≤ q then ⌊q⌋ else ⌈q⌉

/-- Whether an integer is the signed word of a number: zero if the number is not finite, and else
    the integer of 32 bits that is congruent to the number rounded toward zero. -/
def IsWord (x : Number) (k : ℤ) : Prop :=
  match x.rational? with
  | none => k = 0
  | some q => -2 ^ 31 ≤ k ∧ k < 2 ^ 31 ∧ k ≡ towardZero q [ZMOD 2 ^ 32]

/-- A whole number stays as it is. -/
theorem towardZero_intCast (n : ℤ) : towardZero n = n := by
  rw [towardZero, Int.floor_intCast, Int.ceil_intCast, ite_self]

/-- The word of a number is that of its value rounded toward zero, or else of zero. -/
theorem toInt32_eq (x : Number) : x.toInt32 = Word.ofInt (towardZero (x.rational?.getD 0)) := by
  cases x with
  | int n => rw [toInt32, rational?, Option.getD_some, towardZero_intCast]
  | float x =>
    rw [toInt32, Double.truncate_eq]
    cases x <;> rfl

/-- The word that is computed for a number is its only one. -/
theorem isWord_iff {x : Number} {k : ℤ} : x.IsWord k ↔ k = x.toInt32 := by
  rw [toInt32_eq, IsWord]
  cases x.rational? with
  | none =>
    have hzero : Word.ofInt (towardZero 0) = 0 := by
      rw [← Int.cast_zero, towardZero_intCast]
      exact Int.zero_bmod
    rw [Option.getD_none, hzero]
  | some q => exact Word.ofInt_eq_iff.symm.trans eq_comm

end Number

namespace Value

/-- A value that has a number has the words of a vector. -/
theorem exists_words {v : Value} {x : Number} (h : v.toNumber = .ok x) :
    ∃ a : BitVec 32, v.toInt32 = .ok a.toInt ∧ v.toUInt32 = .ok a.toNat ∧
      ∀ k, x.IsWord k ↔ k = a.toInt := by
  obtain ⟨a, ha⟩ : ∃ a : BitVec 32, x.toInt32 = a.toInt :=
    ⟨_, (x.toInt32_eq).trans (Word.toInt_ofInt _).symm⟩
  have hsigned : v.toInt32 = .ok a.toInt := by
    rw [toInt32, h, ← ha]
    rfl
  refine ⟨a, hsigned, ?_, fun k => ha ▸ Number.isWord_iff⟩
  rw [toUInt32, hsigned, ← Word.bits_toInt]
  rfl

/-- An operation on the words of two values is the one on their vectors. -/
theorem wordwise_eq {f : ℤ → ℤ → ℤ} {g : BitVec 32 → BitVec 32 → BitVec 32}
    (h : ∀ a b, f a.toInt b.toInt = (g a b).toInt) {v w : Value} {a b : BitVec 32}
    (hv : v.toInt32 = .ok a.toInt) (hw : w.toInt32 = .ok b.toInt) :
    v.wordwise f w = .ok (.int (g a b).toInt) := by
  rw [wordwise, hv, hw, ← h]
  rfl

/-- The bitwise operators and the shifts are arithmetic of 32-bit vectors. Two values that have
    numbers have vectors: the signed word of each is the only integer that is a word of its number,
    and the unsigned word is the only integer of its range that is congruent to the signed one.
    The operators give the signed value of the operation on the vectors, the distance of a shift
    being the low five bits. The same word is that of the operation on integers without a bound. -/
theorem words_exact (evaluator : Evaluator) {v w : Value} {x y : Number}
    (hv : v.toNumber = .ok x) (hw : w.toNumber = .ok y) :
    ∃ a b : BitVec 32,
      (v.toInt32 = .ok a.toInt ∧ ∀ k, x.IsWord k ↔ k = a.toInt) ∧
      (w.toInt32 = .ok b.toInt ∧ ∀ k, y.IsWord k ↔ k = b.toInt) ∧
      (v.toUInt32 = .ok a.toNat ∧
        ∀ k : ℤ, 0 ≤ k ∧ k < 2 ^ 32 ∧ k ≡ a.toInt [ZMOD 2 ^ 32] ↔ k = a.toNat) ∧
      (w.toUInt32 = .ok b.toNat ∧
        ∀ k : ℤ, 0 ≤ k ∧ k < 2 ^ 32 ∧ k ≡ b.toInt [ZMOD 2 ^ 32] ↔ k = b.toNat) ∧
      UnaryNative.bitwiseNot.apply evaluator v = .ok (.int (~~~a).toInt) ∧
      BinaryNative.bitwiseAnd.apply v w = .ok (.int (a &&& b).toInt) ∧
      BinaryNative.bitwiseOr.apply v w = .ok (.int (a ||| b).toInt) ∧
      BinaryNative.bitwiseXor.apply v w = .ok (.int (a ^^^ b).toInt) ∧
      BinaryNative.shiftLeft.apply v w = .ok (.int (a <<< (b.setWidth 5).toNat).toInt) ∧
      BinaryNative.shiftRight.apply v w = .ok (.int (a.sshiftRight (b.setWidth 5).toNat).toInt) ∧
      (a &&& b).toInt = Word.ofInt (a.toInt.land b.toInt) ∧
      (a ||| b).toInt = Word.ofInt (a.toInt.lor b.toInt) ∧
      (a ^^^ b).toInt = Word.ofInt (a.toInt.xor b.toInt) := by
  obtain ⟨a, ha, hbits, hword⟩ := exists_words hv
  obtain ⟨b, hb, hbits', hword'⟩ := exists_words hw
  refine ⟨a, b, ⟨ha, hword⟩, ⟨hb, hword'⟩, ⟨hbits, fun _ => Word.toNat_eq_iff⟩,
    ⟨hbits', fun _ => Word.toNat_eq_iff⟩, ?_, ?_, ?_, ?_, ?_, ?_, (Word.ofInt_land a b).symm,
    (Word.ofInt_lor a b).symm, (Word.ofInt_xor a b).symm⟩
  · rw [UnaryNative.apply, ha, ← Word.complement_toInt]
    rfl
  · exact wordwise_eq (Word.bitwise_toInt BitVec.toNat_and) ha hb
  · exact wordwise_eq (Word.bitwise_toInt BitVec.toNat_or) ha hb
  · exact wordwise_eq (Word.bitwise_toInt BitVec.toNat_xor) ha hb
  · exact wordwise_eq Word.shiftLeft_toInt ha hb
  · exact wordwise_eq Word.shiftRight_toInt ha hb

/-- Minus one and a half has the word of minus one, all of whose bits are set; an integer beyond
    the words shifts by its low bits. -/
theorem words_exact_negative :
    ∃ v w : Value, v.toNumber = .ok (.float (.finite true (3 * 2 ^ 51) (-52) (by decide))) ∧
      w.toNumber = .ok (.int (2 ^ 32 + 33)) ∧
      v.toInt32 = .ok (-1) ∧ v.toUInt32 = .ok (2 ^ 32 - 1) ∧
      BinaryNative.bitwiseXor.apply v w = .ok (.int (-34)) ∧
      BinaryNative.shiftLeft.apply v w = .ok (.int (-2)) := by
  let x : Number := .float (.finite true (3 * 2 ^ 51) (-52) (by decide))
  let y : Number := .int (2 ^ 32 + 33)
  have hx : (number x).toNumber = .ok x := rfl
  have hy : (number y).toNumber = .ok y := rfl
  obtain ⟨a, b, ⟨ha, hword⟩, ⟨-, hword'⟩, ⟨hbits, -⟩, -, -, -, -, hxor, hleft, -⟩ :=
    words_exact (fun _ => .ok .undefined) hx hy
  have ha' : (-1#32).toInt = a.toInt := (hword _).1 (Number.isWord_iff.2 (by decide +kernel))
  have hb' : (33#32).toInt = b.toInt := (hword' _).1 (Number.isWord_iff.2 (by decide +kernel))
  obtain rfl := BitVec.eq_of_toInt_eq ha'
  obtain rfl := BitVec.eq_of_toInt_eq hb'
  exact ⟨number x, number y, hx, hy, ha, hbits, hxor, hleft⟩

end Value

end TaintWeave
