import TaintWeave.Native
import TaintWeave.Proofs.Double.Whole
import TaintWeave.Proofs.Number.Reading
import TaintWeave.Proofs.Value.Equality

/-!
# Where operators fail

Of all conversions two can fail. The number of a value is not found if it is read from a text with a
whole numeral of too many digits, and the truth of a value is not found if it is an integer beyond
all doubles. A text is found for every value.

An operator fails where one of the conversions that it makes does, and nowhere else. Which
conversions it makes depends on the operands only where it may compare them as they are, or as texts
(`BinaryNative.conversions`).

* `Value.toNumber_eq_error_iff`, `Value.toBoolean_eq_error_iff`: the operands at which the
  conversions fail.
* `UnaryNative.apply_eq_error_iff`, `BinaryNative.apply_eq_error_iff`: an operator fails by its
  conversions.
* `BinaryNative.apply_number_eq_error_iff`: what fails on numbers.
* `Native.fails_exactly`: all together.
-/

namespace TaintWeave

namespace Numeral

/-- A text is read as a whole numeral if it is one. -/
theorem readBare_eq_whole_iff {negative : Bool} {digits text : List Char} :
    readBare text = .whole negative digits ↔ Whole negative digits text := by
  refine ⟨fun h => ?_, readBare_whole⟩
  have hform : (readBare text).form =
      some (if digits.length ≤ digitLimit then .whole else .overlong) := by
    rw [h]
    rfl
  obtain ⟨r, hspells⟩ :
      ∃ r, Spells (if digits.length ≤ digitLimit then .whole else .overlong) text r :=
    ⟨_, spells_iff.2 ⟨hform, rfl⟩⟩
  obtain ⟨negative', digits', hwhole⟩ : ∃ negative' digits', Whole negative' digits' text := by
    split at hspells
    · cases hspells with
      | whole hwhole _ => exact ⟨_, _, hwhole⟩
    · cases hspells with
      | overlong hwhole _ => exact ⟨_, _, hwhole⟩
  -- A text has one sign and one run of digits, those that are read.
  have hread := (readBare_whole hwhole).symm.trans h
  cases hread
  exact hwhole

/-- A numeral denotes no number if it is whole and too long. -/
theorem value_eq_error_iff {n : Numeral} {f : Fault} :
    n.value = .error f ↔
      f = .numeralTooLong ∧
        ∃ negative digits, n = .whole negative digits ∧ 4300 < digits.length := by
  cases n with
  | whole negative digits =>
    rw [value]
    split
    · rename_i hle
      refine iff_of_false ok_ne_error ?_
      rintro ⟨-, _, _, ⟨⟩, hlt⟩
      exact absurd hle (not_le.2 hlt)
    · rename_i hlt
      constructor
      · rintro ⟨⟩
        exact ⟨rfl, _, _, rfl, not_le.1 hlt⟩
      · rintro ⟨rfl, -⟩
        rfl
  | _ =>
    refine iff_of_false ok_ne_error ?_
    rintro ⟨-, _, _, ⟨⟩, -⟩

end Numeral

namespace Value

variable {v w : Value} {f : Fault}

/-! ## Conversions -/

/-- Whether the number of a value is read from a text: that of a text, or of an object. -/
def IsRead (v : Value) : Prop := v.kind = .text ∨ v.kind = .object

instance (v : Value) : Decidable v.IsRead := inferInstanceAs (Decidable (_ ∨ _))

/-- Whether the number of a value is read from a text that is, without the blanks around it, an
    optional sign and more than 4300 decimal digits. -/
def IsOverlong (v : Value) : Prop :=
  v.IsRead ∧ ∃ negative digits,
    Numeral.Whole negative digits (Text.stripBlanks v.toText.toList) ∧ 4300 < digits.length

theorem toNumber_of_isRead (h : v.IsRead) : v.toNumber = (Numeral.read v.toText).value := by
  cases v with
  | undefined | null | boolean _ | number _ => simp [IsRead, kind] at h
  | _ => rfl

theorem exists_toNumber (h : ¬v.IsRead) : ∃ n, v.toNumber = .ok n := by
  cases v with
  | undefined | null | boolean _ | number _ => exact ⟨_, rfl⟩
  | text _ | symbol _ => exact absurd (.inl rfl) h
  | _ => exact absurd (.inr rfl) h

/-- The number of a value is not found if it has too many digits. -/
theorem toNumber_eq_error_iff : v.toNumber = .error f ↔ f = .numeralTooLong ∧ v.IsOverlong := by
  by_cases h : v.IsRead
  · rw [toNumber_of_isRead h, Numeral.value_eq_error_iff, IsOverlong, and_iff_right h]
    simp only [Numeral.read, Numeral.readBare_eq_whole_iff]
  · obtain ⟨n, hn⟩ := exists_toNumber h
    rw [hn]
    exact iff_of_false ok_ne_error fun hover => h hover.2.1

/-- The truth of an integer is not found if it is beyond all doubles. -/
theorem toBoolean_int (n : ℤ) :
    (int n).toBoolean =
      if 2 ^ 1024 - 2 ^ 970 ≤ |n| then .error .numberTooLarge else .ok (n != 0) := by
  have hzero : (Double.ofInt n).isInfinite = true → n ≠ 0 := by
    rintro h rfl
    revert h
    decide
  rw [int, toBoolean]
  exact if_congr ((and_iff_right_of_imp hzero).trans Double.ofInt_isInfinite_iff) rfl rfl

theorem exists_toBoolean (h : ∀ n, v ≠ int n) : ∃ b, v.toBoolean = .ok b := by
  cases v with
  | number n =>
    cases n with
    | int n => exact absurd rfl (h n)
    | float x => exact ⟨_, rfl⟩
  | _ => exact ⟨_, rfl⟩

/-- The truth of a value is not found if it is an integer beyond all doubles. -/
theorem toBoolean_eq_error_iff :
    v.toBoolean = .error f ↔
      f = .numberTooLarge ∧ ∃ n : ℤ, v = int n ∧ 2 ^ 1024 - 2 ^ 970 ≤ |n| := by
  by_cases h : ∃ n, v = int n
  · obtain ⟨n, rfl⟩ := h
    have hint : (∃ k : ℤ, int n = int k ∧ 2 ^ 1024 - 2 ^ 970 ≤ |k|) ↔ 2 ^ 1024 - 2 ^ 970 ≤ |n| := by
      constructor
      · rintro ⟨_, ⟨⟩, hle⟩
        exact hle
      · exact fun hle => ⟨n, rfl, hle⟩
    rw [toBoolean_int, hint]
    split
    · rename_i hle
      rw [and_iff_left hle, Except.error.injEq, eq_comm]
    · rename_i hlt
      exact iff_of_false ok_ne_error fun hle => hlt hle.2
  · obtain ⟨b, hb⟩ := exists_toBoolean (not_exists.1 h)
    rw [hb]
    exact iff_of_false ok_ne_error fun ⟨_, n, hn, _⟩ => h ⟨n, hn⟩

/-! ## Operands -/

/-- An operation on two numbers fails if one of them is not found. -/
theorem numbers_eq_error_iff {α : Type} {g : Number → Number → α} :
    (do let m ← v.toNumber; let n ← w.toNumber; return g m n) = .error f ↔
      v.toNumber = .error f ∨ w.toNumber = .error f :=
  both_eq_error fun e hv hw => (failsWith_toNumber v e hv).trans (failsWith_toNumber w f hw).symm

theorem arithmetic_eq_error_iff {op : Number → Number → Number} :
    v.arithmetic op w = .error f ↔ v.toNumber = .error f ∨ w.toNumber = .error f :=
  numbers_eq_error_iff

theorem wordwise_eq_error_iff {op : ℤ → ℤ → ℤ} :
    v.wordwise op w = .error f ↔ v.toNumber = .error f ∨ w.toNumber = .error f := by
  have hword : ∀ (u : Value) (e : Fault), u.toInt32 = .error e ↔ u.toNumber = .error e :=
    fun _ _ => map_eq_error
  rw [← hword, ← hword]
  refine both_eq_error fun e hv hw => ?_
  rw [hword] at hv hw
  exact (failsWith_toNumber v e hv).trans (failsWith_toNumber w f hw).symm

/-- The primitive form of a value is a text if its number is read from one. -/
theorem isSome_text?_toPrimitive : v.toPrimitive.text?.isSome = true ↔ v.IsRead := by
  cases v <;> simp [toPrimitive, kind, text?, IsRead]

theorem isRead_toPrimitive : v.toPrimitive.IsRead ↔ v.IsRead := by
  cases v <;> simp [toPrimitive, kind, IsRead]

/-- A value and its primitive form have the same number. -/
theorem toNumber_toPrimitive (v : Value) : v.toPrimitive.toNumber = v.toNumber := by
  cases v <;> rfl

/-- A sum is found for all values: texts are not read. -/
theorem exists_add (v w : Value) : ∃ u, v.add w = .ok u := by
  rw [add]
  split
  · exact ⟨_, rfl⟩
  · rename_i h
    rw [Bool.or_eq_true, not_or, isSome_text?_toPrimitive, isSome_text?_toPrimitive] at h
    obtain ⟨m, hm⟩ := exists_toNumber (mt isRead_toPrimitive.1 h.1)
    obtain ⟨n, hn⟩ := exists_toNumber (mt isRead_toPrimitive.1 h.2)
    rw [hm, hn]
    exact ⟨_, rfl⟩

/-- A comparison fails if the number of one of the values is not found, but for two texts. -/
theorem compares_eq_error_iff {outcome : Bool} :
    v.compares outcome w = .error f ↔
      ¬(v.IsRead ∧ w.IsRead) ∧ (v.toNumber = .error f ∨ w.toNumber = .error f) := by
  have hcompares : v.compares outcome w = .error f ↔ v.compare w = .error f := map_eq_error
  rw [hcompares, compare]
  split
  · rename_i s t hs ht
    have hread : v.IsRead ∧ w.IsRead := by
      rw [← isSome_text?_toPrimitive, ← isSome_text?_toPrimitive, hs, ht]
      exact ⟨rfl, rfl⟩
    exact iff_of_false ok_ne_error fun h => h.1 hread
  · rename_i h
    have hread : ¬(v.IsRead ∧ w.IsRead) := by
      rw [← isSome_text?_toPrimitive, ← isSome_text?_toPrimitive, Option.isSome_iff_exists,
        Option.isSome_iff_exists]
      rintro ⟨⟨s, hs⟩, t, ht⟩
      exact h s t hs ht
    rw [and_iff_right hread, ← toNumber_toPrimitive v, ← toNumber_toPrimitive w]
    exact numbers_eq_error_iff

/-- Whether loose equality of two values is answered without a number. -/
def MatchesAsIs (v w : Value) : Prop :=
  v.kind = w.kind ∨ v.isAbsent = true ∨ w.isAbsent = true ∨ v.IsRead ∧ w.IsRead

instance (v w : Value) : Decidable (v.MatchesAsIs w) := inferInstanceAs (Decidable (_ ∨ _))

/-- The primitive forms are of one type if the values are, or if both are texts. -/
theorem kind_toPrimitive_eq_iff :
    v.toPrimitive.kind = w.toPrimitive.kind ↔ v.kind = w.kind ∨ v.IsRead ∧ w.IsRead := by
  have htext : ∀ {u : Value}, u.IsRead → u.toPrimitive.kind = .text := by
    rintro u (h | h)
    · have hprimitive : u.kind ≠ .object := by
        rw [h]
        decide
      rwa [toPrimitive, if_neg hprimitive]
    · exact kind_toPrimitive h
  have hsame : ∀ {u : Value}, ¬u.IsRead → u.toPrimitive.kind = u.kind := by
    intro u h
    rw [toPrimitive, if_neg fun hobject => h (.inr hobject)]
  by_cases hv : v.IsRead <;> by_cases hw : w.IsRead
  · exact iff_of_true ((htext hv).trans (htext hw).symm) (.inr ⟨hv, hw⟩)
  · rw [htext hv, hsame hw]
    refine iff_of_false (fun h => hw (.inl h.symm)) ?_
    rintro (h | h)
    · exact hw (hv.imp h.symm.trans h.symm.trans)
    · exact hw h.2
  · rw [hsame hv, htext hw]
    refine iff_of_false (fun h => hv (.inl h)) ?_
    rintro (h | h)
    · exact hv (hw.imp h.trans h.trans)
    · exact hv h.1
  · rw [hsame hv, hsame hw, or_iff_left fun h => hv h.1]

theorem isAbsent_toPrimitive (v : Value) : v.toPrimitive.isAbsent = v.isAbsent := by
  cases v <;> rfl

/-- Loose equality fails if the numbers of the values are compared and one of them is not found. -/
theorem looseEqual_eq_error_iff :
    v.looseEqual w = .error f ↔
      ¬v.MatchesAsIs w ∧ (v.toNumber = .error f ∨ w.toNumber = .error f) := by
  rw [looseEqual]
  split
  · rename_i hkind
    exact iff_of_false ok_ne_error fun h => h.1 (.inl hkind)
  rename_i hkind
  split
  · rename_i habsent
    rw [Bool.or_eq_true] at habsent
    exact iff_of_false ok_ne_error fun h => h.1 (.inr (habsent.imp_right .inl))
  rename_i hpresent
  rw [looseEqualPrimitive, isAbsent_toPrimitive, isAbsent_toPrimitive, if_neg hpresent]
  by_cases hread : v.IsRead ∧ w.IsRead
  · rw [if_pos (kind_toPrimitive_eq_iff.2 (.inr hread))]
    exact iff_of_false ok_ne_error fun h => h.1 (.inr (.inr (.inr hread)))
  · have hmatches : ¬v.MatchesAsIs w := by
      rw [Bool.or_eq_true] at hpresent
      rintro (h | h | h | h)
      · exact hkind h
      · exact hpresent (.inl h)
      · exact hpresent (.inr h)
      · exact hread h
    rw [if_neg (mt kind_toPrimitive_eq_iff.1 (not_or.2 ⟨hkind, hread⟩)), and_iff_right hmatches,
      ← toNumber_toPrimitive v, ← toNumber_toPrimitive w]
    exact numbers_eq_error_iff

end Value

/-! ## Operators -/

variable {v w : Value} {f : Fault}

/-- The conversions that can fail. -/
inductive Conversion where
  /-- The number of a value. -/
  | number
  /-- The truth of a value. -/
  | boolean

/-- Whether a conversion of a value fails with a fault. -/
def Conversion.Fails : Conversion → Value → Fault → Prop
  | number, v, f => v.toNumber = .error f
  | boolean, v, f => v.toBoolean = .error f

namespace UnaryNative

/-- The conversion that an operator makes of its operand, of those that can fail. -/
def conversion? : UnaryNative → Option Conversion
  | bitwiseNot | increment | decrement | toNumber | toInt32 | toUInt32 => some .number
  | logicalNot | toBoolean => some .boolean
  | typeof | eval | toText | toPrimitive | toDouble => none

/-- An operator with one operand, but for the one that runs code, fails where its conversion
    does. -/
theorem apply_eq_error_iff {op : UnaryNative} {evaluator : Evaluator} (h : op ≠ eval) :
    op.apply evaluator v = .error f ↔ ∃ c ∈ op.conversion?, c.Fails v f := by
  have hnone : (∃ c ∈ (none : Option Conversion), c.Fails v f) ↔ False := by simp
  have hnumber : v.toNumber = .error f ↔ ∃ c ∈ some Conversion.number, c.Fails v f := by
    simp [Conversion.Fails]
  have hboolean : v.toBoolean = .error f ↔ ∃ c ∈ some Conversion.boolean, c.Fails v f := by
    simp [Conversion.Fails]
  cases op with
  | eval => exact absurd rfl h
  | increment | decrement | toNumber => exact map_eq_error.trans hnumber
  | bitwiseNot | toInt32 => exact map_eq_error.trans (map_eq_error.trans hnumber)
  | toUInt32 => exact map_eq_error.trans (map_eq_error.trans (map_eq_error.trans hnumber))
  | logicalNot | toBoolean => exact map_eq_error.trans hboolean
  | typeof | toPrimitive => exact iff_of_false ok_ne_error hnone.1
  | toText | toDouble => cases v <;> exact iff_of_false ok_ne_error hnone.1

end UnaryNative

namespace BinaryNative

/-- The conversions that an operator makes of its operands, of those that can fail. -/
def conversions (v w : Value) : BinaryNative → List (Value × Conversion)
  | subtract | multiply | divide | modulus
  | bitwiseAnd | bitwiseOr | bitwiseXor | shiftLeft | shiftRight => [(v, .number), (w, .number)]
  | logicalAnd | logicalOr => [(v, .boolean)]
  | greater | lesser | greaterEqual | lesserEqual =>
    if v.IsRead ∧ w.IsRead then [] else [(v, .number), (w, .number)]
  | doubleEqual | doubleInequal | looseEquals =>
    if v.MatchesAsIs w then [] else [(v, .number), (w, .number)]
  | add | tripleEqual | tripleInequal | strictEquals => []

/-- An operator with two operands fails where one of its conversions does. -/
theorem apply_eq_error_iff {op : BinaryNative} :
    op.apply v w = .error f ↔ ∃ p ∈ op.conversions v w, p.2.Fails p.1 f := by
  have hnumbers : (∃ p ∈ [(v, Conversion.number), (w, .number)], p.2.Fails p.1 f) ↔
      v.toNumber = .error f ∨ w.toNumber = .error f := by
    simp [Conversion.Fails]
  have hunless : ∀ (P : Prop) [Decidable P],
      (∃ p ∈ if P then [] else [(v, Conversion.number), (w, .number)], p.2.Fails p.1 f) ↔
        ¬P ∧ (v.toNumber = .error f ∨ w.toNumber = .error f) := by
    intro P _
    by_cases hP : P
    · simp [hP]
    · simp [hP, Conversion.Fails]
  have hnone : (∃ p ∈ ([] : List (Value × Conversion)), p.2.Fails p.1 f) ↔ False := by simp
  have hboolean : (∃ p ∈ [(v, Conversion.boolean)], p.2.Fails p.1 f) ↔ v.toBoolean = .error f := by
    simp [Conversion.Fails]
  cases op with
  | subtract | multiply | divide | modulus =>
    exact Value.arithmetic_eq_error_iff.trans hnumbers.symm
  | bitwiseAnd | bitwiseOr | bitwiseXor | shiftLeft | shiftRight =>
    exact Value.wordwise_eq_error_iff.trans hnumbers.symm
  | logicalAnd | logicalOr => exact map_eq_error.trans hboolean.symm
  | lesser | greaterEqual => exact Value.compares_eq_error_iff.trans (hunless _).symm
  | greater | lesserEqual =>
    rw [conversions, hunless, and_comm (a := v.IsRead), or_comm]
    exact Value.compares_eq_error_iff
  | doubleEqual | doubleInequal | looseEquals =>
    exact map_eq_error.trans (Value.looseEqual_eq_error_iff.trans (hunless _).symm)
  | add =>
    obtain ⟨u, hu⟩ := Value.exists_add v w
    rw [apply, hu]
    exact iff_of_false ok_ne_error hnone.1
  | tripleEqual | tripleInequal | strictEquals => exact iff_of_false ok_ne_error hnone.1

/-- The operators that test their first operand for truth. -/
def IsLogical (op : BinaryNative) : Prop := op = logicalAnd ∨ op = logicalOr

/-- An operator finds the truth of its first operand, or numbers of its operands. -/
theorem of_mem_conversions {op : BinaryNative} {p : Value × Conversion}
    (hp : p ∈ op.conversions v w) :
    op.IsLogical ∧ p = (v, .boolean) ∨ p = (v, .number) ∨ p = (w, .number) := by
  have hpair : p ∈ [(v, Conversion.number), (w, .number)] →
      p = (v, .number) ∨ p = (w, .number) := by simp
  cases op with
  | subtract | multiply | divide | modulus
  | bitwiseAnd | bitwiseOr | bitwiseXor | shiftLeft | shiftRight => exact .inr (hpair hp)
  | logicalAnd => exact .inl ⟨.inl rfl, List.mem_singleton.1 hp⟩
  | logicalOr => exact .inl ⟨.inr rfl, List.mem_singleton.1 hp⟩
  | greater | lesser | greaterEqual | lesserEqual | doubleEqual | doubleInequal | looseEquals =>
    rw [conversions] at hp
    split at hp
    · cases hp
    · exact .inr (hpair hp)
  | add | tripleEqual | tripleInequal | strictEquals => cases hp

/-- On numbers an operator fails only if it tests an integer beyond all doubles for truth. -/
theorem apply_number_eq_error_iff {op : BinaryNative} {m n : Number} :
    op.apply (.number m) (.number n) = .error f ↔
      f = .numberTooLarge ∧ op.IsLogical ∧ ∃ k : ℤ, m = .int k ∧ 2 ^ 1024 - 2 ^ 970 ≤ |k| := by
  rw [apply_eq_error_iff]
  constructor
  · rintro ⟨p, hp, hfails⟩
    rcases of_mem_conversions hp with ⟨hop, rfl⟩ | rfl | rfl
    · obtain ⟨rfl, k, hk, hle⟩ := Value.toBoolean_eq_error_iff.1 hfails
      exact ⟨rfl, hop, k, Value.number.inj hk, hle⟩
    · cases hfails
    · cases hfails
  · rintro ⟨rfl, hop, k, rfl, hle⟩
    have hfails : Conversion.boolean.Fails (.number (.int k)) .numberTooLarge :=
      Value.toBoolean_eq_error_iff.2 ⟨rfl, k, rfl, hle⟩
    rcases hop with rfl | rfl
    · exact ⟨_, List.mem_singleton_self _, hfails⟩
    · exact ⟨_, List.mem_singleton_self _, hfails⟩

end BinaryNative

/-! ## All operators -/

/-- Where conversions and operators fail: no value is without a text; the number of a value is not
    found if it is overlong, and its truth if it is an integer beyond all doubles, each with a fault
    of its own; a sum, the name of a type and strict equality are found for all values; every other
    operator, but for the one that runs code, fails where one of its conversions of its operands
    does; so on numbers only the truth of an integer beyond all doubles is not found. -/
theorem Native.fails_exactly (evaluator : Evaluator) (v w : Value) (f : Fault) :
    UnaryNative.toText.apply evaluator v ≠ .error f ∧
    (v.toNumber = .error f ↔ f = .numeralTooLong ∧ v.IsOverlong) ∧
    (v.toBoolean = .error f ↔
      f = .numberTooLarge ∧ ∃ n : ℤ, v = .int n ∧ 2 ^ 1024 - 2 ^ 970 ≤ |n|) ∧
    (v.toNumber = .error f → f.name = "ValueError") ∧
    (v.toBoolean = .error f → f.name = "OverflowError") ∧
    UnaryNative.typeof.apply evaluator v ≠ .error f ∧
    (∀ op ∈ [BinaryNative.add, .tripleEqual, .tripleInequal], op.apply v w ≠ .error f) ∧
    (∀ op ≠ UnaryNative.eval,
      op.apply evaluator v = .error f ↔ ∃ c ∈ op.conversion?, c.Fails v f) ∧
    (∀ op : BinaryNative, op.apply v w = .error f ↔ ∃ p ∈ op.conversions v w, p.2.Fails p.1 f) ∧
    (∀ op : BinaryNative, ∀ p ∈ op.conversions v w, p.1 = v ∨ p.1 = w) ∧
    ∀ (op : BinaryNative) (m n : Number), op.apply (.number m) (.number n) = .error f ↔
      f = .numberTooLarge ∧ op.IsLogical ∧ ∃ k : ℤ, m = .int k ∧ 2 ^ 1024 - 2 ^ 970 ≤ |k| := by
  refine ⟨?_, Value.toNumber_eq_error_iff, Value.toBoolean_eq_error_iff, ?_, ?_, ok_ne_error, ?_,
    fun op => UnaryNative.apply_eq_error_iff, fun op => BinaryNative.apply_eq_error_iff, ?_,
    fun op m n => BinaryNative.apply_number_eq_error_iff⟩
  · have hop : UnaryNative.toText ≠ .eval := by decide
    rw [ne_eq, UnaryNative.apply_eq_error_iff hop]
    rintro ⟨c, ⟨⟩, -⟩
  · intro h
    rw [(Value.toNumber_eq_error_iff.1 h).1]
    rfl
  · intro h
    rw [(Value.toBoolean_eq_error_iff.1 h).1]
    rfl
  · intro op hop
    rw [ne_eq, BinaryNative.apply_eq_error_iff]
    simp only [List.mem_cons, List.not_mem_nil, or_false] at hop
    rcases hop with rfl | rfl | rfl
    all_goals
      rintro ⟨p, hp, -⟩
      cases hp
  · intro op p hp
    rcases BinaryNative.of_mem_conversions hp with ⟨-, rfl⟩ | rfl | rfl
    · exact .inl rfl
    · exact .inl rfl
    · exact .inr rfl

/-- A list in a list that holds a text of 4301 digits has no number, and all that reads its number
    fails; no division by zero does; and of the integers that are tested for truth, those fail that
    reach the bound. -/
theorem Native.fails_exactly_nested :
    let v := Value.sequence 1 .list
      [.sequence 2 .list [.text (String.ofList (List.replicate 4301 '1'))]]
    v.toNumber = .error .numeralTooLong ∧
    UnaryNative.toInt32.apply (fun code => .error (.evaluation code)) v = .error .numeralTooLong ∧
    BinaryNative.subtract.apply (.int 1) v = .error .numeralTooLong ∧
    BinaryNative.looseEquals.apply (.text "1") v ≠ .error .numeralTooLong ∧
    BinaryNative.divide.apply (.int 1) (.int 0) ≠ .error .numberTooLarge ∧
    BinaryNative.logicalOr.apply (.int (2 ^ 1024 - 2 ^ 970)) (.int 0) = .error .numberTooLarge ∧
    BinaryNative.logicalOr.apply (.int (2 ^ 1024 - 2 ^ 970 - 1)) (.int 0) ≠
      .error .numberTooLarge := by
  intro v
  let evaluator : Evaluator := fun code => .error (.evaluation code)
  have hlength : 4300 < (List.replicate 4301 '1').length := by
    rw [List.length_replicate]
    decide
  have hread : v.IsRead := .inr rfl
  have hover : v.IsOverlong := by
    refine ⟨hread, false, _, ?_, hlength⟩
    have htext : v.toText = String.ofList (List.replicate 4301 '1') := rfl
    have hmem : ∀ c ∈ List.replicate 4301 '1', c = '1' := fun c hc => List.eq_of_mem_replicate hc
    have hblank : ∀ c ∈ List.replicate 4301 '1', Text.isBlank c = false := fun c hc => by
      rw [hmem c hc]
      decide
    rw [htext, String.toList_ofList, Text.stripBlanks_of_not_blank hblank]
    refine .intro .none ⟨List.ne_nil_of_length_pos (by omega), fun c hc => ?_⟩
    rw [hmem c hc]
    decide
  obtain ⟨-, hnumber, -, -, -, -, -, hunary, -⟩ := fails_exactly evaluator v v .numeralTooLong
  obtain ⟨-, -, -, -, -, -, -, -, hleft, -⟩ := fails_exactly evaluator (.int 1) v .numeralTooLong
  obtain ⟨-, -, -, -, -, -, -, -, htexts, -⟩ :=
    fails_exactly evaluator (.text "1") v .numeralTooLong
  obtain ⟨-, -, -, -, -, -, -, -, -, -, hnumbers⟩ := fails_exactly evaluator v v .numberTooLarge
  have hfails : v.toNumber = .error .numeralTooLong := hnumber.2 ⟨rfl, hover⟩
  refine ⟨hfails, (hunary _ (by decide)).2 ⟨.number, rfl, hfails⟩,
    (hleft _).2 ⟨(v, .number), by simp [BinaryNative.conversions], hfails⟩, ?_, ?_, ?_, ?_⟩
  · rw [ne_eq, htexts]
    have hmatches : (Value.text "1").MatchesAsIs v := .inr (.inr (.inr ⟨.inl rfl, hread⟩))
    simp [BinaryNative.conversions, hmatches]
  · intro h
    obtain ⟨-, hop, -⟩ := (hnumbers _ _ _).1 h
    rcases hop with ⟨⟨⟩⟩ | ⟨⟨⟩⟩
  · exact (hnumbers _ _ _).2 ⟨rfl, .inr rfl, _, rfl, le_abs_self _⟩
  · intro h
    obtain ⟨-, -, k, hk, hle⟩ := (hnumbers _ _ _).1 h
    have hpow : (2 : ℤ) ^ 970 < 2 ^ 1024 := pow_lt_pow_right₀ (by decide) (by decide)
    obtain rfl := Number.int.inj hk
    rw [abs_of_nonneg (Int.le_sub_one_of_lt (sub_pos.2 hpow))] at hle
    exact absurd hle (not_le.2 (sub_one_lt _))

end TaintWeave
