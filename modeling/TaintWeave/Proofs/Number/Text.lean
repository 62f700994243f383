import TaintWeave.Proofs.Double.Shortest
import TaintWeave.Proofs.Number.Grammar

/-!
# The text of a number

A double is written by laying out the digits of its shortest decimal: with zeros after them, with a
point among them, with a point and zeros before them, or with an exponent. Whatever the layout, the
text denotes the rational of the decimal, by the grammar of numerals. So layouts that differ in the
magnitudes that they write with an exponent, and in what they add to a whole number, give texts of
the same rational.

A text is in plain notation if it has no exponent (`Numeral.Plain`), and else in scientific
notation: one digit that is not zero, an optional point and more digits, and an exponent with its
sign (`Numeral.Scientific`).

* `Layout.denotes_write`: the text of a double denotes its shortest decimal.
* `Layout.plain_write_iff`: which notation the text of a double has.
* `Layout.ecma_plain_iff`: the same, by comparison of doubles.
-/

namespace TaintWeave

namespace Numeral

/-! ## Notations -/

/-- A minus for a negative number. -/
def minus (negative : Bool) : List Char := if negative then ['-'] else []

/-- A text in plain notation: an optional minus, and digits with an optional point. -/
inductive Plain : List Char → Prop
  | intro {negative : Bool} {mantissa : List Char} {a : ℚ} : Mantissa mantissa a →
      Plain (minus negative ++ mantissa)

/-- A text in scientific notation: an optional minus, a leading digit that is not zero, an optional
    point and more digits, the letter, a sign and digits. -/
inductive Scientific : List Char → Prop
  | intro {negative : Bool} {lead sign : Char} {fraction digits : List Char} :
      isDigit 10 lead = true → lead ≠ '0' →
      (fraction = [] ∨ ∃ f, Digits 10 f ∧ fraction = '.' :: f) → sign ∈ ['+', '-'] →
      Digits 10 digits →
      Scientific (minus negative ++ lead :: (fraction ++ 'e' :: sign :: digits))

/-- No text in plain notation has a letter. -/
theorem Plain.not_mem {text : List Char} (h : Plain text) : 'e' ∉ text := by
  have hdigits : ∀ cs : List Char, (∀ c ∈ cs, isDigit 10 c = true) → 'e' ∉ cs :=
    fun cs hcs hmem => absurd (hcs _ hmem) (by decide)
  obtain @⟨negative, mantissa, a, hmantissa⟩ := h
  have hsign : 'e' ∉ minus negative := by cases negative <;> decide
  cases hmantissa with
  | whole hw => simp [hsign, hdigits _ hw.2]
  | point hw hf => simp [hsign, hdigits _ hw.2, hdigits _ hf]
  | fraction hf => simp [hsign, hdigits _ hf.2]

/-- No text is in both notations. -/
theorem Scientific.not_plain {text : List Char} (h : Scientific text) : ¬Plain text := by
  intro hplain
  refine hplain.not_mem ?_
  obtain ⟨⟩ := h
  simp

/-! ## Signs and digits of a number -/

theorem sign_minus (negative : Bool) : Sign negative (minus negative) := by
  cases negative
  · exact .none
  · exact .minus

/-- The integer with the sign and the digits of one. -/
theorem signed_natAbs (n : ℤ) : signed (decide (n < 0)) n.natAbs = n := by
  rw [signed]
  split <;> rename_i h <;> simp at h <;> omega

/-- The value of a decimal digit. -/
theorem digitValue_of_isDigit {c : Char} (h : c.isDigit = true) :
    digitValue c = some (c.toNat - '0'.toNat) := by
  have hrange : '0' ≤ c ∧ c ≤ '9' := by
    simpa [Char.isDigit, Char.le_def] using h
  rw [digitValue, if_pos hrange]

theorem isDigit_of_isDigit {c : Char} (h : c.isDigit = true) : isDigit 10 c = true := by
  have hlt : c.toNat - '0'.toNat < 10 := by
    have hrange : c.toNat ≤ '9'.toNat := by
      simp [Char.isDigit] at h
      exact h.2
    have hnine : '9'.toNat = 57 := rfl
    have hzero : '0'.toNat = 48 := rfl
    omega
  rw [isDigit, digitValue_of_isDigit h]
  simpa using hlt

/-- The digits of a number are digits. -/
theorem digits_toDigits (n : ℕ) : Digits 10 (Nat.toDigits 10 n) :=
  ⟨List.ne_nil_of_length_pos Nat.length_toDigits_pos,
    fun _ hc => isDigit_of_isDigit (Nat.isDigit_of_mem_toDigits (by decide) (by decide) hc)⟩

/-- The digits of a number denote it. -/
theorem number_toDigits (n : ℕ) : number 10 (Nat.toDigits 10 n) = n := by
  rw [← ofDigits_eq, ofDigits]
  refine Eq.trans ?_ Nat.ofDigitChars_ten_toDigits
  refine List.foldl_ext _ _ _ fun a c hc => ?_
  rw [digitValue_of_isDigit (Nat.isDigit_of_mem_toDigits (by decide) (by decide) hc), mul_comm]
  rfl

/-- Zeros denote nothing. -/
theorem number_replicate (k : ℕ) : number 10 (List.replicate k '0') = 0 := by
  induction k with
  | zero => rfl
  | succ k ih =>
    rw [List.replicate_succ', number_append, ih, zero_mul]
    rfl

/-- Digits denote a number below the power of ten of their count. -/
theorem number_lt {cs : List Char} (h : ∀ c ∈ cs, isDigit 10 c = true) :
    number 10 cs < 10 ^ cs.length := by
  have hlt : ∀ k ∈ cs.reverse.map fun c => (digitValue c).getD 0, k < 10 := by
    intro k hk
    obtain ⟨c, hc, rfl⟩ := List.mem_map.1 hk
    have hdigit := h c (List.mem_reverse.1 hc)
    rw [isDigit] at hdigit
    cases hvalue : digitValue c with
    | none => decide
    | some v => simpa [hvalue] using hdigit
  refine (Nat.ofDigits_lt_base_pow_length (by decide) hlt).trans_eq ?_
  rw [List.length_map, List.length_reverse]

/-- Zeros before digits do not count. -/
theorem number_zeros_append (k : ℕ) (cs : List Char) :
    number 10 (List.replicate k '0' ++ cs) = number 10 cs := by
  rw [number_append, number_replicate, zero_mul, zero_add]

/-- The first digit of a positive number is not zero. -/
theorem head_toDigits {n : ℕ} (hn : 0 < n) : ∀ c ∈ (Nat.toDigits 10 n).head?, c ≠ '0' := by
  rintro _ hc rfl
  obtain ⟨cs, hcs⟩ := List.head?_eq_some_iff.1 hc
  have hdigits := (digits_toDigits n).2
  have hnumber := number_toDigits n
  have hle := Decimal.pow_digitCount_le hn
  rw [Decimal.digitCount, hcs, List.length_cons, Nat.add_sub_cancel] at hle
  rw [hcs] at hdigits hnumber
  -- Without its first digit, the number would be too small for the count of its digits.
  have hlt := number_lt fun c hc => hdigits c (List.mem_cons_of_mem _ hc)
  have hzero := number_zeros_append 1 cs
  rw [List.replicate_one, List.singleton_append] at hzero
  omega

/-- Zeros are digits. -/
theorem digits_zeros (k : ℕ) : ∀ c ∈ List.replicate k '0', isDigit 10 c = true := by
  intro c hc
  rw [List.eq_of_mem_replicate hc]
  decide

/-- Digits between or before others. -/
theorem digits_append {cs ds : List Char} (hcs : ∀ c ∈ cs, isDigit 10 c = true)
    (hds : ∀ c ∈ ds, isDigit 10 c = true) : ∀ c ∈ cs ++ ds, isDigit 10 c = true := by
  intro c hc
  exact (List.mem_append.1 hc).elim (hcs c) (hds c)

/-- Digits around a point are scaled by the digits after it. -/
theorem mantissa_point {w f : List Char} (hw : Digits 10 w) (hf : ∀ c ∈ f, isDigit 10 c = true) :
    Mantissa (w ++ '.' :: f) (number 10 (w ++ f) / 10 ^ f.length) := by
  have hsplit : (number 10 (w ++ f) : ℚ) / 10 ^ f.length =
      number 10 w + number 10 f / 10 ^ f.length := by
    rw [number_append]
    push_cast
    field_simp
  rw [hsplit]
  exact .point hw hf

/-- A point after some of the digits. -/
theorem mantissa_among {digits : List Char} (h : Digits 10 digits) {p : ℕ} (hp : 0 < p) :
    Mantissa (digits.take p ++ '.' :: digits.drop p)
      (number 10 digits / 10 ^ (digits.length - p)) := by
  have hw : Digits 10 (digits.take p) :=
    ⟨fun hnil => (List.take_eq_nil_iff.1 hnil).elim hp.ne' h.1,
      fun c hc => h.2 c (List.mem_of_mem_take hc)⟩
  have hmantissa := mantissa_point (f := digits.drop p) hw
    fun c hc => h.2 c (List.mem_of_mem_drop hc)
  rwa [List.take_append_drop, List.length_drop] at hmantissa

/-- A zero and a point before the digits, and zeros between. -/
theorem mantissa_before {digits : List Char} (h : Digits 10 digits) (z : ℕ) :
    Mantissa ('0' :: '.' :: (List.replicate z '0' ++ digits))
      (number 10 digits / 10 ^ (z + digits.length)) := by
  have hzero : Digits 10 ['0'] := ⟨by decide, digits_zeros 1⟩
  have hmantissa := mantissa_point hzero (digits_append (digits_zeros z) h.2)
  rwa [← List.append_assoc, ← List.replicate_one, ← List.replicate_add, number_zeros_append,
    List.length_append, List.length_replicate] at hmantissa

end Numeral

/-! ## Layouts -/

namespace Layout

open Numeral

/-- The layout of the instrumented language: a point alone from `10 ^ (-6)` to below `10 ^ 21`; a
    whole number has no point, and an exponent no zero in front. -/
def ecma : Layout where
  leastPositional := -6
  greatestPositional := 20
  wholeEnding := ""
  exponentWidth := 1
  signedZero := false
  infinity := "Infinity"
  nan := "NaN"

variable {l : Layout}

theorem toList_zeros (k : ℤ) : (zeros k).toList = List.replicate k.toNat '0' :=
  String.toList_ofList

/-- The digits of a whole decimal, and zeros after them. -/
def wholeDigits (d : Decimal) : List Char :=
  Nat.toDigits 10 d.digits ++ List.replicate d.exponent.toNat '0'

theorem digits_wholeDigits (d : Decimal) : Digits 10 (wholeDigits d) :=
  ⟨fun h => (digits_toDigits _).1 (List.append_eq_nil_iff.1 h).1,
    digits_append (digits_toDigits _).2 (digits_zeros _)⟩

/-- The digits of a whole decimal denote it. -/
theorem number_wholeDigits {d : Decimal} (h : 0 ≤ d.exponent) :
    (number 10 (wholeDigits d) : ℚ) = d.toRat := by
  obtain ⟨k, hk⟩ := Int.eq_ofNat_of_zero_le h
  rw [wholeDigits, number_append, number_toDigits, number_replicate, List.length_replicate,
    Decimal.toRat, hk]
  simp

/-- A whole decimal has a digit more than its magnitude. -/
theorem length_wholeDigits {d : Decimal} (h : 0 ≤ d.exponent) :
    ((wholeDigits d).length : ℤ) = d.magnitude + 1 := by
  have hlength : (wholeDigits d).length = Decimal.digitCount d.digits + d.exponent.toNat := by
    rw [wholeDigits, List.length_append, List.length_replicate, Decimal.digitCount]
  rw [hlength, Decimal.magnitude]
  omega

/-- A whole decimal without an exponent has only its digits, up to the ending. -/
theorem positional_whole {d : Decimal} (h : 0 ≤ d.exponent) :
    (l.positional d).toList = wholeDigits d ++ l.wholeEnding.toList := by
  rw [positional]
  simp [h, toList_zeros, wholeDigits]

/-- A decimal without an exponent. -/
theorem mantissa_positional (hl : l.wholeEnding = "" ∨ l.wholeEnding = ".0") (d : Decimal) :
    Mantissa (l.positional d).toList d.toRat := by
  have hdigits := digits_toDigits d.digits
  by_cases hwhole : 0 ≤ d.exponent
  · rw [positional_whole hwhole, ← number_wholeDigits hwhole]
    rcases hl with hl | hl
    · rw [hl, String.toList_empty, List.append_nil]
      exact .whole (digits_wholeDigits d)
    · have hpoint := Mantissa.point (digits_wholeDigits d) (digits_zeros 1)
      rw [number_replicate, Nat.cast_zero, zero_div, add_zero] at hpoint
      rw [hl]
      exact hpoint
  · obtain ⟨k, hk⟩ : ∃ k : ℕ, d.exponent = -k := ⟨d.exponent.natAbs, by omega⟩
    have hvalue : d.toRat = (number 10 (Nat.toDigits 10 d.digits) : ℚ) / 10 ^ k := by
      rw [number_toDigits, Decimal.toRat, hk, zpow_neg, zpow_natCast, div_eq_mul_inv]
    rw [positional, if_neg hwhole, hvalue]
    generalize Nat.toDigits 10 d.digits = digits at hdigits ⊢
    split
    · rename_i hpoint
      obtain ⟨p, hp⟩ : ∃ p : ℕ, (digits.length : ℤ) + d.exponent = p :=
        ⟨digits.length - k, by omega⟩
      have hmantissa := mantissa_among hdigits (p := p) (by omega)
      rw [show digits.length - p = k by omega] at hmantissa
      rw [hp, Int.toNat_natCast]
      simpa using hmantissa
    · rename_i hpoint
      obtain ⟨z, hz⟩ : ∃ z : ℕ, -((digits.length : ℤ) + d.exponent) = z :=
        ⟨k - digits.length, by omega⟩
      have hmantissa := mantissa_before hdigits z
      rw [show z + digits.length = k by omega] at hmantissa
      simpa [hz, toList_zeros] using hmantissa

/-- The digits of an exponent, with zeros before them. -/
def exponentDigits (l : Layout) (n : ℕ) : List Char :=
  List.replicate (l.exponentWidth - (Nat.toDigits 10 n).length : ℤ).toNat '0' ++ Nat.toDigits 10 n

theorem digits_exponentDigits (l : Layout) (n : ℕ) : Digits 10 (l.exponentDigits n) :=
  ⟨fun h => (digits_toDigits n).1 (List.append_eq_nil_iff.1 h).2,
    digits_append (digits_zeros _) (digits_toDigits n).2⟩

theorem number_exponentDigits (l : Layout) (n : ℕ) : number 10 (l.exponentDigits n) = n := by
  rw [exponentDigits, number_zeros_append, number_toDigits]

/-- What stands between the first digit and the exponent. -/
def fraction (digits : List Char) : List Char :=
  if digits.length ≤ 1 then [] else '.' :: digits.drop 1

/-- A decimal with an exponent: the first digit, the others after a point, and the magnitude. -/
theorem toList_scientific (l : Layout) (d : Decimal) :
    (l.scientific d).toList =
      (Nat.toDigits 10 d.digits).take 1 ++ fraction (Nat.toDigits 10 d.digits) ++
        'e' :: ([if d.magnitude < 0 then '-' else '+'] ++
          l.exponentDigits d.magnitude.natAbs) := by
  rw [scientific, fraction]
  split <;> split <;> simp [toList_zeros, exponentDigits]

/-- The first digit and the others after a point. -/
theorem mantissa_scientific (n : ℕ) :
    Mantissa ((Nat.toDigits 10 n).take 1 ++ fraction (Nat.toDigits 10 n))
      (n / 10 ^ (Decimal.digitCount n - 1)) := by
  have hdigits := digits_toDigits n
  have hnumber := number_toDigits n
  rw [Decimal.digitCount]
  generalize Nat.toDigits 10 n = digits at hdigits hnumber ⊢
  rw [fraction]
  split
  · rename_i hlength
    rw [List.append_nil, List.take_of_length_le hlength, Nat.sub_eq_zero_of_le hlength, pow_zero,
      div_one, ← hnumber]
    exact .whole hdigits
  · rw [← hnumber]
    exact mantissa_among hdigits one_pos

/-- A decimal with an exponent. -/
theorem unsigned_scientific (l : Layout) (d : Decimal) :
    Unsigned (l.scientific d).toList d.toRat := by
  have hsign : Sign (decide (d.magnitude < 0)) [if d.magnitude < 0 then '-' else '+'] := by
    split
    · rename_i h
      rw [decide_eq_true h]
      exact .minus
    · rename_i h
      rw [decide_eq_false h]
      exact .plus
  have hexponent := Exponent.some (by decide : 'e' ∈ ['e', 'E']) hsign
    (l.digits_exponentDigits d.magnitude.natAbs)
  rw [number_exponentDigits, signed_natAbs] at hexponent
  have hvalue : (d.digits : ℚ) / 10 ^ (Decimal.digitCount d.digits - 1) * 10 ^ d.magnitude =
      d.toRat := by
    rw [Decimal.toRat, d.magnitude_eq, zpow_add₀ (by norm_num), zpow_natCast]
    field_simp
  rw [toList_scientific, ← hvalue]
  exact .intro (mantissa_scientific d.digits) hexponent

/-- A decimal in any layout denotes its rational. -/
theorem unsigned_writeDecimal (hl : l.wholeEnding = "" ∨ l.wholeEnding = ".0") (d : Decimal) :
    Unsigned (l.writeDecimal d).toList d.toRat := by
  rw [writeDecimal]
  split
  · simpa using Unsigned.intro (mantissa_positional hl d) .none
  · exact unsigned_scientific l d

/-- A decimal with an exponent is in scientific notation. -/
theorem scientific_shape (l : Layout) (negative : Bool) {d : Decimal} (hd : 0 < d.digits) :
    Scientific (minus negative ++ (l.scientific d).toList) := by
  have hdigits := digits_toDigits d.digits
  have hhead := head_toDigits hd
  rw [toList_scientific]
  generalize Nat.toDigits 10 d.digits = digits at hdigits hhead ⊢
  cases digits with
  | nil => exact absurd rfl hdigits.1
  | cons lead rest =>
    have hfraction : fraction (lead :: rest) = [] ∨
        ∃ f, Digits 10 f ∧ fraction (lead :: rest) = '.' :: f := by
      rw [fraction]
      split
      · exact .inl rfl
      · rename_i hlength
        refine .inr ⟨rest, ⟨fun h => hlength (by simp [h]), fun c hc => ?_⟩, rfl⟩
        exact hdigits.2 c (List.mem_cons_of_mem _ hc)
    have hsign : (if d.magnitude < 0 then '-' else '+') ∈ ['+', '-'] := by split <;> decide
    exact .intro (hdigits.2 lead List.mem_cons_self) (hhead lead rfl) hfraction hsign
      (l.digits_exponentDigits d.magnitude.natAbs)

variable {negative : Bool} {m : ℕ} {e : ℤ}

/-- The text of a double but zero: a minus for a negative one, and the shortest decimal. -/
theorem toList_write (l : Layout) (hm : m ≠ 0) (hc : Double.Canonical m e) :
    (l.write (.finite negative m e hc)).toList =
      minus negative ++ (l.writeDecimal (Double.shortest m e)).toList := by
  rw [write, if_neg hm, String.toList_append]
  cases negative <;> rfl

/-- The text of a double but zero denotes its shortest decimal, with its sign. -/
theorem denotes_write (hl : l.wholeEnding = "" ∨ l.wholeEnding = ".0") (hm : m ≠ 0)
    (hc : Double.Canonical m e) :
    Denotes negative (l.write (.finite negative m e hc)).toList
      (if negative then -(Double.shortest m e).toRat else (Double.shortest m e).toRat) := by
  rw [toList_write l hm hc]
  exact .intro (sign_minus negative) (unsigned_writeDecimal hl _)

/-- The text of a double is in plain notation exactly if the magnitude is one that is written
    without an exponent, and else in scientific notation. -/
theorem plain_write_iff (hl : l.wholeEnding = "" ∨ l.wholeEnding = ".0") (hm : m ≠ 0)
    (hc : Double.Canonical m e) :
    (Plain (l.write (.finite negative m e hc)).toList ↔
      l.leastPositional ≤ (Double.shortest m e).magnitude ∧
        (Double.shortest m e).magnitude ≤ l.greatestPositional) ∧
    (Scientific (l.write (.finite negative m e hc)).toList ↔
      ¬Plain (l.write (.finite negative m e hc)).toList) := by
  rw [toList_write l hm hc, writeDecimal]
  by_cases hmagnitude : l.leastPositional ≤ (Double.shortest m e).magnitude ∧
      (Double.shortest m e).magnitude ≤ l.greatestPositional
  · have hplain : Plain (minus negative ++ (l.positional (Double.shortest m e)).toList) :=
      .intro (mantissa_positional hl _)
    rw [if_pos hmagnitude]
    exact ⟨iff_of_true hplain hmagnitude, iff_of_false (fun h => h.not_plain hplain)
      (not_not.2 hplain)⟩
  · have hscientific := scientific_shape l negative
      (Double.digits_shortest_pos (Nat.pos_of_ne_zero hm) hc)
    rw [if_neg hmagnitude]
    exact ⟨iff_of_false hscientific.not_plain hmagnitude,
      iff_of_true hscientific hscientific.not_plain⟩

/-! ## The notation of the instrumented language -/

/-- The absolute value of a double. -/
theorem abs_toRat (hc : Double.Canonical m e) :
    |(Double.finite negative m e hc).toRat| = m * 2 ^ e := by
  have hnonneg : (0 : ℚ) ≤ m * 2 ^ e := by positivity
  rw [Double.toRat_finite]
  cases negative
  · exact abs_of_nonneg hnonneg
  · rw [if_pos rfl, neg_mul, abs_neg, abs_of_nonneg hnonneg]

/-- The magnitude of a double as it is written, for a power of ten that is a shortest decimal. -/
theorem le_magnitude_iff (negative : Bool) {k : ℤ} {m' : ℕ} {e' : ℤ} (hm : m ≠ 0)
    (hc : Double.Canonical m e) (hm' : 0 < m') (hc' : Double.Canonical m' e')
    (hpower : Double.shortest m' e' = ⟨1, k⟩) :
    k ≤ (Double.shortest m e).magnitude ↔
      (Double.ofDecimal false ⟨1, k⟩).toRat ≤ |(Double.finite negative m e hc).toRat| := by
  rw [Double.le_magnitude_shortest_iff (Nat.pos_of_ne_zero hm) hm' hc hc' hpower, abs_toRat,
    ← hpower, Double.ofDecimal_shortest false hm' hc', Double.toRat_finite]
  rfl

/-- The text of a double is in plain notation from `10 ^ (-6)` to below `10 ^ 21`: from and below
    the doubles nearest to these. -/
theorem ecma_plain_iff (hm : m ≠ 0) (hc : Double.Canonical m e) :
    Plain (ecma.write (.finite negative m e hc)).toList ↔
      (Double.ofDecimal false ⟨1, -6⟩).toRat ≤ |(Double.finite negative m e hc).toRat| ∧
      |(Double.finite negative m e hc).toRat| < (Double.ofDecimal false ⟨1, 21⟩).toRat := by
  have hleast := le_magnitude_iff negative hm hc (by decide)
    (by decide : Double.Canonical 4722366482869645 (-72))
    (by decide +kernel : Double.shortest _ _ = ⟨1, -6⟩)
  have hgreatest := le_magnitude_iff negative hm hc (by decide)
    (by decide : Double.Canonical 7629394531250000 17)
    (by decide +kernel : Double.shortest _ _ = ⟨1, 21⟩)
  rw [(plain_write_iff (.inl rfl) hm hc).1, ← hleast, ← not_le, ← hgreatest, not_le]
  exact and_congr_right fun _ => Int.lt_add_one_iff.symm

end Layout

end TaintWeave
