import TaintWeave.Number.Digits
import TaintWeave.Proofs.Number.Text

/-!
# Digits cut out of a text

The text of a positive double in a report has the digits of its shortest decimal: with zeros before
or after them, with a point among them, or with an exponent. The shortest decimal neither starts nor
ends with a zero, so that nothing is lost when zeros are cut off at both ends. What is left are its
digits, whatever form the text has, and the place of the point is one more than its magnitude.

Laid out anew, these digits are the text of the double in a layout of its own, `Layout.ecma`. So
what is known about layouts holds of this text.

* `Double.cut_write`: the digits of the shortest decimal and its magnitude are cut out of the text.
* `Double.toText_eq_write`: the text of a double in the instrumented language, as a layout.
-/

namespace TaintWeave

namespace Decimal

/-! ## The last digit -/

/-- Without zeros at the end, the last digit is not zero. -/
theorem mod_digits_dropZeros {fuel : ℕ} {d : Decimal} (hd : 0 < d.digits)
    (hfuel : d.digits < 10 ^ fuel) : (d.dropZeros fuel).digits % 10 ≠ 0 := by
  induction fuel generalizing d with
  | zero =>
    rw [pow_zero] at hfuel
    omega
  | succ fuel ih =>
    rw [pow_succ] at hfuel
    rw [dropZeros]
    split
    · exact ih (show 0 < d.digits / 10 by omega) (show d.digits / 10 < 10 ^ fuel by omega)
    · rename_i h
      exact fun hmod => h ⟨hmod, hd.ne'⟩

/-- The last digit of a decimal that is normalized is not zero. -/
theorem mod_digits_normalize {d : Decimal} (hd : 0 < d.digits) : d.normalize.digits % 10 ≠ 0 :=
  mod_digits_dropZeros hd ((digitCount_le_iff (digitCount_pos _)).1 le_rfl)

end Decimal

namespace Double

open Numeral

variable {m : ℕ} {e : ℤ}

/-- The last digit of the shortest decimal is not zero. -/
theorem mod_digits_shortest (hm : 0 < m) (hc : Canonical m e) : (shortest m e).digits % 10 ≠ 0 := by
  obtain ⟨count, -, hcount, -⟩ := exists_count hm hc
  obtain ⟨k, j, -, -, hfound⟩ := exists_neighbours m e (Int.log 10 ((m : ℚ) * 2 ^ e)) count
  obtain ⟨i, -, hnormalize, hrounds⟩ := hfound _ hcount
  rw [hnormalize]
  refine Decimal.mod_digits_normalize (Nat.pos_of_ne_zero fun hi => ?_)
  -- No zero rounds to a positive double.
  rw [hnormalize, Decimal.toRat_normalize, Decimal.toRat_eq_zero_iff.2 hi] at hrounds
  exact lt_irrefl _ (hrounds.pos hm)

/-! ## Cutting -/

/-- A text is split at the first mark in it. -/
theorem splitAtMark_append {mark : Char} {front : List Char} (h : mark ∉ front)
    (rest : List Char) : splitAtMark mark (front ++ mark :: rest) = (front, rest) := by
  have hfront : ∀ c ∈ front, (c != mark) = true := fun c hc => bne_iff_ne.2 fun heq => h (heq ▸ hc)
  have hmark : ∀ c ∈ (mark :: rest).head?, (c != mark) = false := by simp
  rw [splitAtMark, Text.takeWhile_run hfront hmark, Text.dropWhile_run hfront hmark]
  rfl

/-- Nothing comes after a mark that is not there. -/
theorem splitAtMark_of_notMem {mark : Char} {cs : List Char} (h : mark ∉ cs) :
    splitAtMark mark cs = (cs, []) := by
  have hcs : ∀ c ∈ cs, (c != mark) = true := fun c hc => bne_iff_ne.2 fun heq => h (heq ▸ hc)
  rw [splitAtMark, List.takeWhile_eq_self_iff.2 hcs, List.dropWhile_eq_nil_iff.2 hcs]
  rfl

/-- Digits that neither start nor end with a zero. -/
structure Trimmed (digits : List Char) : Prop where
  isDigits : Digits 10 digits
  head : ∀ c ∈ digits.head?, c ≠ '0'
  last : ∀ c ∈ digits.getLast?, c ≠ '0'

variable {digits : List Char}

/-- Zeros before the digits are cut off. -/
theorem Trimmed.dropWhile (h : Trimmed digits) (z : ℕ) (rest : List Char) :
    (List.replicate z '0' ++ (digits ++ rest)).dropWhile (· == '0') = digits ++ rest := by
  refine Text.dropWhile_run (fun c hc => beq_iff_eq.2 (List.eq_of_mem_replicate hc)) fun c hc => ?_
  rw [List.head?_append_of_ne_nil _ h.isDigits.1] at hc
  exact beq_eq_false_iff_ne.2 (h.head c hc)

/-- Zeros after the digits are cut off. -/
theorem Trimmed.dropWhile_reverse (h : Trimmed digits) (z : ℕ) :
    ((digits ++ List.replicate z '0').reverse.dropWhile (· == '0')).reverse = digits := by
  have hrun : (List.replicate z '0' ++ digits.reverse).dropWhile (· == '0') = digits.reverse := by
    refine Text.dropWhile_run (fun c hc => beq_iff_eq.2 (List.eq_of_mem_replicate hc))
      fun c hc => ?_
    rw [List.head?_reverse] at hc
    exact beq_eq_false_iff_ne.2 (h.last c hc)
  rw [List.reverse_append, List.reverse_replicate, hrun, List.reverse_reverse]

/-- The digits of a text, if only zeros are around them, and the place of the point: after the
    digits before it, moved by the exponent, without the zeros that are cut off. -/
theorem cut_of_parts {text mantissa exponent whole fraction : List Char} {z w : ℕ}
    (htext : splitAtMark 'e' text = (mantissa, exponent))
    (hmantissa : splitAtMark '.' mantissa = (whole, fraction)) (h : Trimmed digits)
    (hparts : whole ++ fraction =
      List.replicate z '0' ++ (digits ++ List.replicate w '0')) :
    cut text = (digits, whole.length + readInteger exponent - z) := by
  have hlength : ((whole ++ fraction).length : ℤ) -
      (digits ++ List.replicate w '0').length = z := by
    rw [hparts]
    simp
  rw [cut, htext]
  simp only [hmantissa]
  rw [hparts] at hlength ⊢
  rw [h.dropWhile, h.dropWhile_reverse, hlength]

/-- No digit is a letter or a point. -/
theorem notMem_digits {cs : List Char} (h : ∀ c ∈ cs, isDigit 10 c = true) : 'e' ∉ cs ∧ '.' ∉ cs :=
  ⟨fun hmem => absurd (h _ hmem) (by decide), fun hmem => absurd (h _ hmem) (by decide)⟩

/-- The digits of a number neither start nor end with a zero if its last digit is not zero. -/
theorem trimmed_toDigits {n : ℕ} (h : n % 10 ≠ 0) : Trimmed (Nat.toDigits 10 n) := by
  have hdigit : ∀ k < 10, k ≠ 0 → k.digitChar ≠ '0' := by decide
  refine ⟨digits_toDigits n, head_toDigits (by omega), fun c hc => ?_⟩
  have hlast : (Nat.toDigits 10 n).getLast? = some (n % 10).digitChar := by
    rw [Nat.toDigits_eq_if (by decide)]
    split
    · rename_i hn
      rw [Nat.mod_eq_of_lt hn]
      rfl
    · exact List.getLast?_concat
  rw [hlast] at hc
  cases hc
  exact hdigit _ (Nat.mod_lt n (by decide)) h

variable {d : Decimal}

/-- The place of the point in the digits of a decimal. -/
theorem magnitude_add_one (d : Decimal) :
    d.magnitude + 1 = (Nat.toDigits 10 d.digits).length + d.exponent := by
  rw [Decimal.magnitude, Decimal.digitCount]
  omega

/-- The digits of a text with a point among digits and no exponent, if only zeros are around
    them. -/
theorem cut_point {whole fraction : List Char} {z w : ℕ} (h : Trimmed digits)
    (hwhole : ∀ c ∈ whole, isDigit 10 c = true) (hfraction : ∀ c ∈ fraction, isDigit 10 c = true)
    (hparts : whole ++ fraction =
      List.replicate z '0' ++ (digits ++ List.replicate w '0')) :
    cut (whole ++ '.' :: fraction) = (digits, (whole.length : ℤ) - z) := by
  have htext : splitAtMark 'e' (whole ++ '.' :: fraction) = (whole ++ '.' :: fraction, []) := by
    refine splitAtMark_of_notMem ?_
    simp [(notMem_digits hwhole).1, (notMem_digits hfraction).1]
  have hexponent : readInteger [] = 0 := rfl
  rw [cut_of_parts htext (splitAtMark_append (notMem_digits hwhole).2 fraction) h hparts,
    hexponent, add_zero]

/-- The digits of a decimal are cut out of its text with a point alone. -/
theorem cut_positional (h : Trimmed (Nat.toDigits 10 d.digits)) :
    cut (Layout.plain.positional d).toList =
      (Nat.toDigits 10 d.digits, d.magnitude + 1) := by
  rw [magnitude_add_one]
  by_cases hwhole : 0 ≤ d.exponent
  · -- The zeros after the digits are those of the whole number, and the one after its point.
    have hparts : Layout.wholeDigits d ++ List.replicate 1 '0' = List.replicate 0 '0' ++
        (Nat.toDigits 10 d.digits ++ List.replicate (d.exponent.toNat + 1) '0') := by
      rw [Layout.wholeDigits, List.append_assoc, ← List.replicate_add]
      rfl
    have hcut := cut_point h (Layout.digits_wholeDigits d).2 (digits_zeros 1) hparts
    have hlength : (Layout.wholeDigits d).length =
        (Nat.toDigits 10 d.digits).length + d.exponent.toNat := by simp [Layout.wholeDigits]
    rw [Layout.positional_whole hwhole]
    refine hcut.trans (congrArg (Prod.mk _) ?_)
    rw [hlength]
    omega
  · rw [Layout.positional, if_neg hwhole]
    generalize Nat.toDigits 10 d.digits = digits at h ⊢
    split
    · -- The point is between two digits: there are no zeros.
      obtain ⟨p, hp⟩ : ∃ p : ℕ, (digits.length : ℤ) + d.exponent = p :=
        ⟨((digits.length : ℤ) + d.exponent).toNat, by omega⟩
      have hparts : digits.take p ++ digits.drop p =
          List.replicate 0 '0' ++ (digits ++ List.replicate 0 '0') := by simp
      have hcut := cut_point h (fun c hc => h.isDigits.2 c (List.mem_of_mem_take hc))
        (fun c hc => h.isDigits.2 c (List.mem_of_mem_drop hc)) hparts
      have hlist : (String.ofList (digits.take p) ++ "." ++ String.ofList (digits.drop p)).toList =
          digits.take p ++ '.' :: digits.drop p := by simp
      rw [hp, Int.toNat_natCast, hlist]
      refine hcut.trans (congrArg (Prod.mk _) ?_)
      rw [List.length_take_of_le (by omega)]
      omega
    · -- All digits are after the point, behind zeros.
      obtain ⟨z, hz⟩ : ∃ z : ℕ, -((digits.length : ℤ) + d.exponent) = z :=
        ⟨(-((digits.length : ℤ) + d.exponent)).toNat, by omega⟩
      have hparts : ['0'] ++ (List.replicate z '0' ++ digits) =
          List.replicate (z + 1) '0' ++ (digits ++ List.replicate 0 '0') := by
        rw [List.replicate_zero, List.append_nil, List.replicate_succ]
        rfl
      have hcut := cut_point h (digits_zeros 1) (digits_append (digits_zeros z) h.isDigits.2) hparts
      have hlist : ("0." ++ Layout.zeros z ++ String.ofList digits).toList =
          ['0'] ++ '.' :: (List.replicate z '0' ++ digits) := by simp [Layout.toList_zeros]
      rw [hz, hlist]
      refine hcut.trans (congrArg (Prod.mk _) ?_)
      rw [List.length_replicate]
      omega

/-- The exponent of a text is read as the magnitude of the decimal. -/
theorem readInteger_magnitude (l : Layout) (k : ℤ) :
    readInteger ((if k < 0 then '-' else '+') :: l.exponentDigits k.natAbs) = k := by
  have hread (negative : Bool) : signed negative (ofDigits 10 (l.exponentDigits k.natAbs)) =
      if negative then -(k.natAbs : ℤ) else k.natAbs := by
    rw [ofDigits_eq, Layout.number_exponentDigits, signed]
  split
  · refine (hread true).trans ?_
    rw [if_pos rfl]
    omega
  · refine (hread false).trans ?_
    rw [if_neg (by decide)]
    omega

/-- The digits of a decimal are cut out of its text with an exponent. -/
theorem cut_scientific (h : Trimmed (Nat.toDigits 10 d.digits)) :
    cut (Layout.plain.scientific d).toList =
      (Nat.toDigits 10 d.digits, d.magnitude + 1) := by
  rw [Layout.toList_scientific, List.singleton_append]
  have hinteger := readInteger_magnitude Layout.plain d.magnitude
  generalize Nat.toDigits 10 d.digits = digits at h ⊢
  generalize ((if d.magnitude < 0 then '-' else '+') ::
    Layout.plain.exponentDigits d.magnitude.natAbs) = exponent at hinteger ⊢
  have htake : ∀ c ∈ digits.take 1, isDigit 10 c = true :=
    fun c hc => h.isDigits.2 c (List.mem_of_mem_take hc)
  have hdrop : ∀ c ∈ digits.drop 1, isDigit 10 c = true :=
    fun c hc => h.isDigits.2 c (List.mem_of_mem_drop hc)
  have hlength : (digits.take 1).length = 1 :=
    List.length_take_of_le (List.length_pos_of_ne_nil h.isDigits.1)
  -- The point is left out if there is one digit only.
  have hsplit : splitAtMark '.' (digits.take 1 ++ Layout.fraction digits) =
      (digits.take 1, digits.drop 1) := by
    rw [Layout.fraction]
    split
    · rename_i hone
      rw [List.append_nil, List.drop_eq_nil_iff.2 hone]
      exact splitAtMark_of_notMem (notMem_digits htake).2
    · exact splitAtMark_append (notMem_digits htake).2 _
  have hletter : 'e' ∉ digits.take 1 ++ Layout.fraction digits := by
    rw [Layout.fraction, List.mem_append, not_or]
    refine ⟨(notMem_digits htake).1, ?_⟩
    split
    · exact List.not_mem_nil
    · exact List.not_mem_cons_of_ne_of_not_mem (by decide) (notMem_digits hdrop).1
  have hparts : digits.take 1 ++ digits.drop 1 =
      List.replicate 0 '0' ++ (digits ++ List.replicate 0 '0') := by
    rw [List.take_append_drop, List.replicate_zero, List.nil_append, List.append_nil]
  rw [cut_of_parts (splitAtMark_append hletter exponent) hsplit h hparts, hlength, hinteger]
  refine congrArg (Prod.mk _) ?_
  omega

/-- What is cut out of the text of a positive double: the digits of its shortest decimal, and one
    more than its magnitude. -/
theorem cut_write (hm : m ≠ 0) (hc : Canonical m e) :
    cut (Layout.plain.write (finite false m e hc)).toList =
      (Nat.toDigits 10 (shortest m e).digits, (shortest m e).magnitude + 1) := by
  have h := trimmed_toDigits (mod_digits_shortest (Nat.pos_of_ne_zero hm) hc)
  have hsign (cs : List Char) : minus false ++ cs = cs := rfl
  rw [Layout.toList_write Layout.plain hm hc, hsign, Layout.writeDecimal]
  split
  · exact cut_positional h
  · exact cut_scientific h

/-! ## Laying out -/

/-- Digits around a point are those of the decimal with a point alone. -/
theorem layOut_positional (h : -6 ≤ d.magnitude ∧ d.magnitude ≤ 20) :
    layOut (Nat.toDigits 10 d.digits) (d.magnitude + 1) = Layout.ecma.positional d := by
  have hlength := List.length_pos_of_ne_nil (digits_toDigits d.digits).1
  have hpoint := magnitude_add_one d
  rw [layOut, Layout.positional]
  dsimp only
  generalize Nat.toDigits 10 d.digits = digits at hlength hpoint ⊢
  by_cases hwhole : 0 ≤ d.exponent
  · have hzeros : d.magnitude + 1 - digits.length = d.exponent := by omega
    have hending : Layout.ecma.wholeEnding = "" := rfl
    rw [if_pos (by omega), if_pos hwhole, hzeros, hending, String.append_empty]
  · rw [if_neg (by omega), if_neg hwhole, ← hpoint]
    by_cases hpositive : 0 < d.magnitude + 1
    · rw [if_pos ⟨hpositive, by omega⟩, if_pos hpositive]
    · rw [if_neg (by omega), if_neg hpositive, if_pos (by omega)]

/-- Digits with an exponent are those of the decimal with an exponent. -/
theorem layOut_scientific (h : ¬(-6 ≤ d.magnitude ∧ d.magnitude ≤ 20)) :
    layOut (Nat.toDigits 10 d.digits) (d.magnitude + 1) = Layout.ecma.scientific d := by
  have hlength := List.length_pos_of_ne_nil (digits_toDigits d.digits).1
  -- An exponent has a digit at least, so that no zeros come before it.
  have hzeros : Layout.zeros (Layout.ecma.exponentWidth -
      (Nat.toDigits 10 d.magnitude.natAbs).length) = "" := by
    have := List.length_pos_of_ne_nil (digits_toDigits d.magnitude.natAbs).1
    have hwidth : Layout.ecma.exponentWidth = 1 := rfl
    rw [hwidth, Layout.zeros, Int.toNat_of_nonpos (by omega)]
    rfl
  have hsign : (if 1 ≤ d.magnitude + 1 then "+" else "-") =
      if d.magnitude < 0 then "-" else "+" := by
    split <;> split <;> first | rfl | omega
  rw [layOut, Layout.scientific]
  dsimp only
  generalize Nat.toDigits 10 d.digits = digits at hlength ⊢
  rw [if_neg (by omega), if_neg (by omega), if_neg (by omega), hsign, hzeros,
    Int.add_sub_cancel, Nat.toString_eq_ofList_toDigits]
  by_cases hone : digits.length = 1
  · have hcount : (digits.length : ℤ) = 1 := by omega
    rw [if_pos hcount, if_pos hone.le, List.take_of_length_le hone.le]
    simp only [String.append_assoc, String.append_empty]
  · have hcount : ¬(digits.length : ℤ) = 1 := by omega
    have hmore : ¬digits.length ≤ 1 := by omega
    rw [if_neg hcount, if_neg hmore]
    simp only [String.append_assoc, String.empty_append]

/-- The digits of a decimal are laid out as the decimal is. -/
theorem layOut_toDigits (d : Decimal) :
    layOut (Nat.toDigits 10 d.digits) (d.magnitude + 1) = Layout.ecma.writeDecimal d := by
  rw [Layout.writeDecimal]
  split
  · rename_i h
    exact layOut_positional h
  · rename_i h
    exact layOut_scientific h

/-- The text of a double is that in the layout of the instrumented language. -/
theorem toText_eq_write (x : Double) : x.toText = Layout.ecma.write x := by
  cases x with
  | nan => rfl
  | infinite negative => cases negative <;> rfl
  | finite negative m e hc =>
    by_cases hm : m = 0
    · rw [toText, if_pos hm, Layout.write, if_pos hm]
      cases negative <;> rfl
    · rw [toText, if_neg hm, cut_write hm hc, Layout.write, if_neg hm]
      dsimp only
      rw [layOut_toDigits]

end Double

end TaintWeave
