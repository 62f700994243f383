import Mathlib.Data.List.TakeWhile
import Mathlib.Data.Nat.Digits.Defs
import TaintWeave.Proofs.Double.Decimal
import TaintWeave.Proofs.Text.Runs
import TaintWeave.Number.Numeral

/-!
# The grammar of numerals

The texts that denote numbers, as a grammar: what a sign, the digits around a point and an exponent
are, and the number that each spells. A text has one of the forms of `Numeral.Form`, or none.

The parts of a decimal are read as the grammar has them, each exactly where there is one, so that no
text denotes two rationals.

* `Numeral.Digits`, `Numeral.Sign`, `Numeral.Mantissa`, `Numeral.Exponent`: the parts of a numeral.
* `Numeral.Denotes`: a decimal with a sign, and the rational that it denotes.
* `Numeral.Spells`: the forms of a text, and the number of each.
* `Numeral.unsigned_of_readDecimal`, `Numeral.exists_readDecimal`: how decimals are read.
* `Numeral.Denotes.iff`: no text is ambiguous.
-/

namespace TaintWeave

namespace Numeral

/-! ## The grammar -/

/-- Digits of a radix, at least one. -/
def Digits (radix : ℕ) (cs : List Char) : Prop := cs ≠ [] ∧ ∀ c ∈ cs, isDigit radix c = true

/-- The number that digits denote, the last one counting least. -/
def number (radix : ℕ) (cs : List Char) : ℕ :=
  Nat.ofDigits radix (cs.reverse.map fun c => (digitValue c).getD 0)

/-- An optional sign, and whether it is minus. -/
inductive Sign : Bool → List Char → Prop
  | none : Sign false []
  | plus : Sign false ['+']
  | minus : Sign true ['-']

/-- Digits, with an optional point and optional digits after it, or a point and digits. -/
inductive Mantissa : List Char → ℚ → Prop
  | whole {w : List Char} : Digits 10 w → Mantissa w (number 10 w)
  | point {w f : List Char} : Digits 10 w → (∀ c ∈ f, isDigit 10 c = true) →
      Mantissa (w ++ '.' :: f) (number 10 w + number 10 f / 10 ^ f.length)
  | fraction {f : List Char} : Digits 10 f → Mantissa ('.' :: f) (number 10 f / 10 ^ f.length)

/-- An optional exponent: the letter, an optional sign and digits. -/
inductive Exponent : List Char → ℤ → Prop
  | none : Exponent [] 0
  | some {letter : Char} {negative : Bool} {sign digits : List Char} : letter ∈ ['e', 'E'] →
      Sign negative sign → Digits 10 digits →
      Exponent (letter :: (sign ++ digits)) (signed negative (number 10 digits))

/-- A decimal without a sign, and the rational that it denotes. -/
inductive Unsigned : List Char → ℚ → Prop
  | intro {mantissa exponent : List Char} {a : ℚ} {e : ℤ} : Mantissa mantissa a →
      Exponent exponent e → Unsigned (mantissa ++ exponent) (a * 10 ^ e)

/-- A decimal with an optional sign, and the rational that it denotes. -/
inductive Denotes : Bool → List Char → ℚ → Prop
  | intro {negative : Bool} {sign rest : List Char} {q : ℚ} : Sign negative sign →
      Unsigned rest q → Denotes negative (sign ++ rest) (if negative then -q else q)

/-- An optional sign and decimal digits. -/
inductive Whole : Bool → List Char → List Char → Prop
  | intro {negative : Bool} {sign digits : List Char} : Sign negative sign → Digits 10 digits →
      Whole negative digits (sign ++ digits)

/-- The forms of a text that spells a number, or too many digits for one. -/
inductive Form where
  /-- Nothing. -/
  | empty
  /-- Digits after a radix mark. -/
  | radix
  /-- A sign and decimal digits. -/
  | whole
  /-- A sign and too many decimal digits. -/
  | overlong
  /-- A sign and the word for infinity. -/
  | infinity
  /-- A sign and any other decimal. -/
  | decimal
  deriving DecidableEq

/-- The marks of a radix. -/
def marks : List (Char × ℕ) := [('x', 16), ('X', 16), ('o', 8), ('O', 8), ('b', 2), ('B', 2)]

/-- The texts of a form, and the number that each spells. -/
inductive Spells : Form → List Char → Except Fault Number → Prop
  | empty : Spells .empty [] (.ok (.int 0))
  | radix {mark : Char} {r : ℕ} {digits : List Char} : (mark, r) ∈ marks → Digits r digits →
      Spells .radix ('0' :: mark :: digits) (.ok (.ofInt (number r digits)))
  | whole {negative : Bool} {digits text : List Char} : Whole negative digits text →
      digits.length ≤ 4300 → Spells .whole text (.ok (.ofInt (signed negative (number 10 digits))))
  | overlong {negative : Bool} {digits text : List Char} : Whole negative digits text →
      4300 < digits.length → Spells .overlong text (.error .numeralTooLong)
  | infinity {negative : Bool} {sign : List Char} : Sign negative sign →
      Spells .infinity (sign ++ "Infinity".toList) (.ok (.float (.infinite negative)))
  | decimal {negative : Bool} {text : List Char} {q : ℚ} : Denotes negative text q →
      (∀ negative' digits, ¬Whole negative' digits text) →
      Spells .decimal text (.ok (.float (.ofRat negative q)))

/-! ## Digits -/

theorem isDigits_iff {r : ℕ} {cs : List Char} : isDigits r cs = true ↔ Digits r cs := by
  simp [isDigits, Digits]

/-- The digits are read from the first to the last. -/
theorem ofDigits_eq (r : ℕ) (cs : List Char) : ofDigits r cs = number r cs := by
  rw [ofDigits, number, Nat.ofDigits_eq_foldr, List.foldr_map, List.foldr_reverse]
  congr 1
  funext n c
  push_cast
  ring

/-- The number of digits after others. -/
theorem number_append (r : ℕ) (cs ds : List Char) :
    number r (cs ++ ds) = number r cs * r ^ ds.length + number r ds := by
  rw [number, List.reverse_append, List.map_append, Nat.ofDigits_append, List.length_map,
    List.length_reverse, add_comm, mul_comm]
  rfl

/-- Digits up to a character that is none, or the end, are taken off at once. -/
theorem takeWhile_digits {cs rest : List Char} (hcs : ∀ c ∈ cs, isDigit 10 c = true)
    (hrest : ∀ c ∈ rest.head?, isDigit 10 c = false) :
    (cs ++ rest).takeWhile (isDigit 10) = cs ∧ (cs ++ rest).dropWhile (isDigit 10) = rest :=
  ⟨Text.takeWhile_run hcs hrest, Text.dropWhile_run hcs hrest⟩

/-! ## Signs and exponents -/

/-- A sign is split off what does not start with one. -/
theorem splitSign_append {negative : Bool} {sign cs : List Char} (hsign : Sign negative sign)
    (hcs : ∀ c ∈ cs.head?, c ≠ '+' ∧ c ≠ '-') : splitSign (sign ++ cs) = (negative, cs) := by
  cases hsign with
  | none =>
    rw [List.nil_append, splitSign.eq_def]
    split
    · exact absurd rfl (hcs _ rfl).2
    · exact absurd rfl (hcs _ rfl).1
    · rfl
  | plus => rfl
  | minus => rfl

/-- What is split off is a sign. -/
theorem exists_sign (cs : List Char) :
    ∃ negative sign rest, Sign negative sign ∧ cs = sign ++ rest ∧
      splitSign cs = (negative, rest) := by
  rw [splitSign.eq_def]
  split
  · exact ⟨true, ['-'], _, .minus, rfl, rfl⟩
  · exact ⟨false, ['+'], _, .plus, rfl, rfl⟩
  · exact ⟨false, [], _, .none, rfl, rfl⟩

/-- Digits do not start with a sign. -/
theorem Digits.not_sign {cs : List Char} (h : Digits 10 cs) :
    ∀ c ∈ cs.head?, c ≠ '+' ∧ c ≠ '-' := by
  intro c hc
  have hdigit := h.2 c (List.mem_of_head? hc)
  constructor <;> (rintro rfl; exact absurd hdigit (by decide))

/-- An exponent is read exactly where there is one. -/
theorem readExponent_eq_some_iff {cs : List Char} {e : ℤ} :
    readExponent cs = some e ↔ Exponent cs e := by
  constructor
  · cases cs with
    | nil =>
      rintro ⟨⟩
      exact .none
    | cons letter cs =>
      obtain ⟨negative, sign, digits, hsign, rfl, hsplit⟩ := exists_sign cs
      rw [readExponent, hsplit]
      dsimp only
      split
      · rename_i h
        rintro ⟨⟩
        rw [ofDigits_eq]
        exact .some (by simpa using h.1) hsign (isDigits_iff.1 h.2)
      · simp
  · intro h
    cases h with
    | none => rfl
    | some hletter hsign hdigits =>
      rw [readExponent, splitSign_append hsign hdigits.not_sign]
      dsimp only
      rw [if_pos ⟨by simpa using hletter, isDigits_iff.2 hdigits⟩, ofDigits_eq]
      rfl

/-- An exponent starts with a letter that is neither a digit nor a point. -/
theorem Exponent.head {cs : List Char} {e : ℤ} (h : Exponent cs e) :
    ∀ c ∈ cs.head?, isDigit 10 c = false ∧ c ≠ '.' := by
  cases h with
  | none => simp
  | some hletter =>
    rintro _ ⟨⟩
    rcases List.mem_pair.1 hletter with rfl | rfl <;> decide

/-! ## Decimals -/

/-- Digits without a point. -/
theorem readDecimal_whole {w rest : List Char} (hw : ∀ c ∈ w, isDigit 10 c = true)
    (hrest : ∀ c ∈ rest.head?, isDigit 10 c = false ∧ c ≠ '.') :
    readDecimal (w ++ rest) = if w = [] then Option.none
      else (readExponent rest).map fun e => ⟨number 10 w, e⟩ := by
  obtain ⟨htake, hdrop⟩ := takeWhile_digits hw fun c hc => (hrest c hc).1
  rw [readDecimal, htake, hdrop]
  cases rest with
  | nil => simp [ofDigits_eq]
  | cons c rest => simp [(hrest c rfl).2, ofDigits_eq]

/-- Digits around a point. -/
theorem readDecimal_point {w f rest : List Char} (hw : ∀ c ∈ w, isDigit 10 c = true)
    (hf : ∀ c ∈ f, isDigit 10 c = true) (hrest : ∀ c ∈ rest.head?, isDigit 10 c = false) :
    readDecimal (w ++ '.' :: (f ++ rest)) = if w = [] ∧ f = [] then Option.none
      else (readExponent rest).map fun e => ⟨number 10 (w ++ f), e - f.length⟩ := by
  have hpoint : ∀ c ∈ ('.' :: (f ++ rest)).head?, isDigit 10 c = false := by
    rintro c ⟨⟩
    decide
  obtain ⟨htake, hdrop⟩ := takeWhile_digits hw hpoint
  obtain ⟨htake', hdrop'⟩ := takeWhile_digits hf hrest
  rw [readDecimal, htake, hdrop]
  simp [htake', hdrop', ofDigits_eq]

/-- The digits on both sides of a point, as one number that is scaled by the digits after it. -/
theorem toRat_point (w f : List Char) (e : ℤ) :
    (Decimal.mk (number 10 (w ++ f)) (e - f.length)).toRat =
      (number 10 w + number 10 f / 10 ^ f.length) * 10 ^ e := by
  rw [Decimal.toRat, number_append, zpow_sub₀ (by norm_num), zpow_natCast]
  push_cast
  field_simp

/-- Every text is digits and something that starts with none. -/
theorem exists_digits (cs : List Char) :
    ∃ w rest, cs = w ++ rest ∧ (∀ c ∈ w, isDigit 10 c = true) ∧
      ∀ c ∈ rest.head?, isDigit 10 c = false := by
  refine ⟨cs.takeWhile (isDigit 10), cs.dropWhile (isDigit 10),
    List.takeWhile_append_dropWhile.symm, fun c hc => List.mem_takeWhile_imp hc, fun c hc => ?_⟩
  have hhead := List.head?_dropWhile_not (isDigit 10) cs
  rw [Option.mem_def.1 hc] at hhead
  exact hhead

/-- Digits around a point, not missing on both sides. -/
theorem mantissa_of_point {w f : List Char} (hw : ∀ c ∈ w, isDigit 10 c = true)
    (hf : ∀ c ∈ f, isDigit 10 c = true) (hne : ¬(w = [] ∧ f = [])) :
    Mantissa (w ++ '.' :: f) (number 10 w + number 10 f / 10 ^ f.length) := by
  by_cases hempty : w = []
  · subst hempty
    have hfraction : Mantissa ('.' :: f) (number 10 f / 10 ^ f.length) :=
      .fraction ⟨fun h => hne ⟨rfl, h⟩, hf⟩
    simpa [number] using hfraction
  · exact .point ⟨hempty, hw⟩ hf

/-- What is read as a decimal is one, and denotes the rational of the grammar. -/
theorem unsigned_of_readDecimal {cs : List Char} {d : TaintWeave.Decimal}
    (h : readDecimal cs = some d) : Unsigned cs d.toRat := by
  obtain ⟨w, rest, rfl, hw, hrest⟩ := exists_digits cs
  by_cases hpoint : '.' ∈ rest.head?
  · obtain ⟨tail, rfl⟩ := List.head?_eq_some_iff.1 hpoint
    obtain ⟨f, rest, rfl, hf, hrest⟩ := exists_digits tail
    rw [readDecimal_point hw hf hrest] at h
    split at h
    · cases h
    · rename_i hdigits
      obtain ⟨e, hexponent, rfl⟩ := Option.map_eq_some_iff.1 h
      rw [toRat_point, ← List.cons_append, ← List.append_assoc]
      exact .intro (mantissa_of_point hw hf hdigits) (readExponent_eq_some_iff.1 hexponent)
  · have hrest' : ∀ c ∈ rest.head?, isDigit 10 c = false ∧ c ≠ '.' :=
      fun c hc => ⟨hrest c hc, fun h => hpoint (h ▸ hc)⟩
    rw [readDecimal_whole hw hrest'] at h
    split at h
    · cases h
    · rename_i hdigits
      obtain ⟨e, hexponent, rfl⟩ := Option.map_eq_some_iff.1 h
      exact .intro (.whole ⟨hdigits, hw⟩) (readExponent_eq_some_iff.1 hexponent)

/-- Every decimal is read. -/
theorem exists_readDecimal {cs : List Char} {q : ℚ} (h : Unsigned cs q) :
    ∃ d, readDecimal cs = some d ∧ d.toRat = q := by
  obtain ⟨hmantissa, hexponent⟩ := h
  have hread := readExponent_eq_some_iff.2 hexponent
  have hhead := hexponent.head
  cases hmantissa with
  | whole hw =>
    rw [readDecimal_whole hw.2 hhead, if_neg hw.1, hread]
    exact ⟨_, rfl, rfl⟩
  | point hw hf =>
    rw [List.append_assoc, List.cons_append, readDecimal_point hw.2 hf fun c hc => (hhead c hc).1,
      if_neg fun h => hw.1 h.1, hread]
    exact ⟨_, rfl, toRat_point _ _ _⟩
  | @fraction f hf =>
    rw [List.cons_append, ← List.nil_append ('.' :: _),
      readDecimal_point (by simp) hf.2 fun c hc => (hhead c hc).1, if_neg fun h => hf.1 h.2, hread]
    refine ⟨_, rfl, (toRat_point [] f _).trans ?_⟩
    simp [number]

/-- No decimal without a sign starts with a sign. -/
theorem readDecimal_sign {c : Char} (hc : c ∈ ['+', '-']) (cs : List Char) :
    readDecimal (c :: cs) = Option.none := by
  have hhead : ∀ d ∈ (c :: cs).head?, isDigit 10 d = false ∧ d ≠ '.' := by
    rintro _ ⟨⟩
    rcases List.mem_pair.1 hc with rfl | rfl <;> decide
  exact readDecimal_whole (w := []) (by simp) hhead

theorem Unsigned.not_sign {cs : List Char} {q : ℚ} (h : Unsigned cs q) :
    ∀ c ∈ cs.head?, c ≠ '+' ∧ c ≠ '-' := by
  intro c hc
  obtain ⟨d, hread, -⟩ := exists_readDecimal h
  obtain ⟨tail, rfl⟩ := List.head?_eq_some_iff.1 hc
  constructor <;> (rintro rfl; rw [readDecimal_sign (by decide)] at hread; cases hread)

/-- What denotes a rational is a sign and a decimal, both as they are read. -/
theorem Denotes.exists_read {negative : Bool} {text : List Char} {q : ℚ}
    (h : Denotes negative text q) :
    ∃ rest d, splitSign text = (negative, rest) ∧ readDecimal rest = some d ∧
      q = if negative then -d.toRat else d.toRat := by
  obtain ⟨hsign, hrest⟩ := h
  obtain ⟨d, hread, rfl⟩ := exists_readDecimal hrest
  exact ⟨_, d, splitSign_append hsign hrest.not_sign, hread, rfl⟩

/-- A text denotes at most one rational, with one sign. -/
theorem Denotes.iff {negative negative' : Bool} {text : List Char} {q q' : ℚ}
    (h : Denotes negative text q) :
    Denotes negative' text q' ↔ negative' = negative ∧ q' = q := by
  constructor
  · intro h'
    obtain ⟨rest, d, hsplit, hread, rfl⟩ := h.exists_read
    obtain ⟨rest', d', hsplit', hread', rfl⟩ := h'.exists_read
    obtain ⟨rfl, rfl⟩ := Prod.mk.inj (hsplit.symm.trans hsplit')
    obtain rfl := Option.some.inj (hread.symm.trans hread')
    exact ⟨rfl, rfl⟩
  · rintro ⟨rfl, rfl⟩
    exact h

end Numeral

end TaintWeave
