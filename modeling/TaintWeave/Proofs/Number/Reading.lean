import TaintWeave.Proofs.Number.Grammar
import TaintWeave.Value.Conversion

/-!
# Reading numerals

Reading a numeral finds the form and the number that the grammar gives it, and nothing where the
grammar gives none (`Numeral.spells_iff`). So the forms exclude each other, and it does not matter
in which order they are tried.

The near misses are in the lemmas on what is not read: after a sign there is no second one, and no
radix mark; a mark is neither a digit nor the letter of an exponent.

* `Numeral.readUnsigned_cases`, `Numeral.readBare_cases`: what is read, with and without a sign.
* `Numeral.spells_iff`: what is read is what the grammar spells.
* `Value.toNumber_of_whole`, `Value.toNumber_of_decimal`: the number of a text without blanks.
* `Value.toNumber_text_grammar`: the number of a text.
-/

namespace TaintWeave

namespace Numeral

/-! ## Numerals without a sign -/

theorem readUnsigned_whole {cs : List Char} (negative : Bool) (h : Digits 10 cs) :
    readUnsigned negative cs = .whole negative cs := by
  rw [readUnsigned, if_pos (isDigits_iff.2 h)]

theorem readUnsigned_infinity (negative : Bool) :
    readUnsigned negative "Infinity".toList = .infinity negative := by
  rw [readUnsigned, if_neg (by decide), if_pos rfl]

theorem readUnsigned_decimal {cs : List Char} {q : ℚ} (negative : Bool) (h : Unsigned cs q)
    (hwhole : ¬Digits 10 cs) :
    ∃ d, readUnsigned negative cs = .decimal negative d ∧ d.toRat = q := by
  obtain ⟨d, hread, hd⟩ := exists_readDecimal h
  have hinfinity : cs ≠ "Infinity".toList := by
    rintro rfl
    rw [show readDecimal "Infinity".toList = Option.none by decide] at hread
    cases hread
  refine ⟨d, ?_, hd⟩
  rw [readUnsigned, if_neg (mt isDigits_iff.1 hwhole), if_neg hinfinity, hread]

/-- What is read without a sign: digits, the word for infinity, another decimal, or nothing. -/
theorem readUnsigned_cases (negative : Bool) (cs : List Char) :
    (Digits 10 cs ∧ readUnsigned negative cs = .whole negative cs) ∨
    (cs = "Infinity".toList ∧ readUnsigned negative cs = .infinity negative) ∨
    (∃ d, Unsigned cs d.toRat ∧ readUnsigned negative cs = .decimal negative d) ∨
    readUnsigned negative cs = .none := by
  rw [readUnsigned]
  split
  · rename_i h
    exact .inl ⟨isDigits_iff.1 h, rfl⟩
  · split
    · rename_i h
      exact .inr (.inl ⟨h, rfl⟩)
    · split
      · rename_i d hread
        exact .inr (.inr (.inl ⟨d, unsigned_of_readDecimal hread, rfl⟩))
      · exact .inr (.inr (.inr rfl))

/-- No numeral without a sign starts with a sign. -/
theorem readUnsigned_sign (negative : Bool) {c : Char} (hc : c ∈ ['+', '-']) (cs : List Char) :
    readUnsigned negative (c :: cs) = .none := by
  have hfirst : isDigit 10 c = false ∧ c ≠ 'I' := by
    rcases List.mem_pair.1 hc with rfl | rfl <;> decide
  have hinfinity : c :: cs ≠ "Infinity".toList := fun h => hfirst.2 (List.cons.inj h).1
  rw [readUnsigned, if_neg (by simp [isDigits, hfirst.1]), if_neg hinfinity, readDecimal_sign hc]

/-- No numeral without a sign starts with a radix mark after a zero. -/
theorem readUnsigned_mark (negative : Bool) {mark : Char} {r : ℕ} (h : (mark, r) ∈ marks)
    (cs : List Char) : readUnsigned negative ('0' :: mark :: cs) = .none := by
  have hmark : isDigit 10 mark = false ∧ mark ≠ '.' ∧ ¬(mark = 'e' ∨ mark = 'E') :=
    (by decide : ∀ p ∈ marks, isDigit 10 p.1 = false ∧ p.1 ≠ '.' ∧ ¬(p.1 = 'e' ∨ p.1 = 'E')) _ h
  have hhead : ∀ d ∈ (mark :: cs).head?, isDigit 10 d = false ∧ d ≠ '.' := by
    rintro _ ⟨⟩
    exact ⟨hmark.1, hmark.2.1⟩
  have hexponent : readExponent (mark :: cs) = Option.none := by
    rw [readExponent]
    exact if_neg fun h => hmark.2.2 h.1
  have hdecimal : readDecimal ('0' :: mark :: cs) = Option.none := by
    refine (readDecimal_whole (w := ['0']) (List.forall_mem_singleton.2 (by decide)) hhead).trans ?_
    rw [hexponent]
    rfl
  have hinfinity : '0' :: mark :: cs ≠ "Infinity".toList :=
    fun h => absurd (List.cons.inj h).1 (by decide)
  rw [readUnsigned, if_neg (by simp [isDigits, hmark.1]), if_neg hinfinity, hdecimal]

/-! ## Numerals -/

theorem radixOf_eq_some_iff {c : Char} {r : ℕ} : radixOf c = some r ↔ (c, r) ∈ marks := by
  rw [radixOf]
  split
  · rename_i h
    rcases h with rfl | rfl <;> simp [marks, eq_comm]
  · split
    · rename_i h
      rcases h with rfl | rfl <;> simp [marks, eq_comm]
    · split
      · rename_i h
        rcases h with rfl | rfl <;> simp [marks, eq_comm]
      · simp_all [marks]

/-- Digits after a radix mark. -/
theorem readBare_radix {mark : Char} {r : ℕ} (h : (mark, r) ∈ marks) (digits : List Char) :
    readBare ('0' :: mark :: digits) =
      if isDigits r digits then .radix (number r digits) else .none := by
  rw [readBare, radixOf_eq_some_iff.2 h]
  dsimp only
  rw [ofDigits_eq]

/-- A text that has no radix mark is read after its sign. -/
theorem readBare_of_not_mark {cs : List Char} (hne : cs ≠ [])
    (hmark : ∀ mark r digits, (mark, r) ∈ marks → cs ≠ '0' :: mark :: digits) :
    readBare cs = readUnsigned (splitSign cs).1 (splitSign cs).2 := by
  rw [readBare.eq_def]
  split
  · exact absurd rfl hne
  · rename_i mark digits
    split
    · rename_i r hr
      exact absurd rfl (hmark mark r digits (radixOf_eq_some_iff.1 hr))
    · rfl
  · rfl

/-- A numeral after a sign is read as without it. -/
theorem readBare_sign {negative : Bool} {sign cs : List Char} (hsign : Sign negative sign)
    (h : readUnsigned negative cs ≠ .none) : readBare (sign ++ cs) = readUnsigned negative cs := by
  have hcs : ∀ c ∈ cs.head?, c ≠ '+' ∧ c ≠ '-' := by
    intro c hc
    obtain ⟨tail, rfl⟩ := List.head?_eq_some_iff.1 hc
    constructor <;> (rintro rfl; exact h (readUnsigned_sign negative (by decide) tail))
  rw [readBare_of_not_mark, splitSign_append hsign hcs]
  · intro hempty
    rw [(List.append_eq_nil_iff.1 hempty).2] at h
    exact h rfl
  · rintro mark r digits hmark heq
    cases hsign with
    | none =>
      rw [List.nil_append] at heq
      exact h (heq ▸ readUnsigned_mark _ hmark digits)
    | plus => exact absurd (List.cons.inj heq).1 (by decide)
    | minus => exact absurd (List.cons.inj heq).1 (by decide)

/-- What is read is empty, digits after a radix mark, a numeral after a sign, or nothing. -/
theorem readBare_cases (cs : List Char) :
    cs = [] ∨
    (∃ mark r digits, (mark, r) ∈ marks ∧ cs = '0' :: mark :: digits) ∨
    ∃ negative sign rest, Sign negative sign ∧ cs = sign ++ rest ∧
      readBare cs = readUnsigned negative rest := by
  by_cases hempty : cs = []
  · exact .inl hempty
  · by_cases hmark : ∃ mark r digits, (mark, r) ∈ marks ∧ cs = '0' :: mark :: digits
    · exact .inr (.inl hmark)
    · obtain ⟨negative, sign, rest, hsign, heq, hsplit⟩ := exists_sign cs
      refine .inr (.inr ⟨negative, sign, rest, hsign, heq, ?_⟩)
      rw [readBare_of_not_mark hempty fun mark r digits hm h => hmark ⟨mark, r, digits, hm, h⟩,
        hsplit]

/-- The form of what is read. -/
def form : Numeral → Option Form
  | .empty => some .empty
  | .radix _ => some .radix
  | .whole _ digits => some (if digits.length ≤ digitLimit then .whole else .overlong)
  | .infinity _ => some .infinity
  | .decimal _ _ => some .decimal
  | .none => Option.none

/-- A sign and digits are read as a whole numeral. -/
theorem readBare_whole {negative : Bool} {digits text : List Char}
    (h : Whole negative digits text) : readBare text = .whole negative digits := by
  obtain ⟨hsign, hdigits⟩ := h
  have hread := readUnsigned_whole negative hdigits
  rw [readBare_sign hsign (by rw [hread]; simp), hread]

/-- A decimal denotes the rational of the grammar, rounded. -/
theorem value_decimal (negative : Bool) (d : TaintWeave.Decimal) :
    value (.decimal negative d) =
      .ok (.float (.ofRat negative (if negative then -d.toRat else d.toRat))) := by
  rw [value, Double.ofDecimal_eq_ofRat]

/-- What the grammar spells is read. -/
theorem Spells.read {f : Form} {text : List Char} {r : Except Fault Number}
    (h : Spells f text r) : (readBare text).form = some f ∧ (readBare text).value = r := by
  cases h with
  | empty => exact ⟨rfl, rfl⟩
  | radix hmark hdigits =>
    rw [readBare_radix hmark, if_pos (isDigits_iff.2 hdigits)]
    exact ⟨rfl, rfl⟩
  | @whole negative digits _ hwhole hlength =>
    have hlength' : digits.length ≤ digitLimit := hlength
    rw [readBare_whole hwhole, form, value, if_pos hlength', if_pos hlength', ofDigits_eq]
    exact ⟨rfl, rfl⟩
  | @overlong negative digits _ hwhole hlength =>
    have hlength' : ¬digits.length ≤ digitLimit := not_le.2 hlength
    rw [readBare_whole hwhole, form, value, if_neg hlength', if_neg hlength']
    exact ⟨rfl, rfl⟩
  | @infinity negative _ hsign =>
    have hread := readUnsigned_infinity negative
    rw [readBare_sign hsign (by rw [hread]; simp), hread]
    exact ⟨rfl, rfl⟩
  | @decimal negative _ _ hdenotes hwhole =>
    cases hdenotes with
    | @intro _ rest _ hsign hunsigned =>
      obtain ⟨d, hread, rfl⟩ := readUnsigned_decimal negative hunsigned
        fun h => hwhole negative rest (.intro hsign h)
      rw [readBare_sign hsign (by rw [hread]; simp), hread, value_decimal]
      exact ⟨rfl, rfl⟩

/-- What is read after a sign has the form that the grammar gives the whole text. -/
theorem spells_of_readUnsigned {f : Form} {negative : Bool} {sign rest : List Char}
    (hsign : Sign negative sign) (hread : readBare (sign ++ rest) = readUnsigned negative rest)
    (hform : (readUnsigned negative rest).form = some f) :
    Spells f (sign ++ rest) (readUnsigned negative rest).value := by
  rcases readUnsigned_cases negative rest with ⟨hdigits, hrest⟩ | ⟨rfl, hrest⟩ |
    ⟨d, hunsigned, hrest⟩ | hrest
  · rw [hrest, form] at hform
    rw [hrest, value, ofDigits_eq]
    cases hform
    split
    · rename_i hlength
      exact .whole (.intro hsign hdigits) hlength
    · rename_i hlength
      exact .overlong (.intro hsign hdigits) (not_le.1 hlength)
  · rw [hrest] at hform ⊢
    cases hform
    exact .infinity hsign
  · rw [hrest] at hform ⊢
    cases hform
    rw [value_decimal]
    -- Only digits would have been read as a whole numeral.
    refine .decimal (.intro hsign hunsigned) fun negative' digits hwhole => ?_
    have hcontra := readBare_whole hwhole
    rw [hread, hrest] at hcontra
    cases hcontra
  · rw [hrest] at hform
    cases hform

/-- What is read is what the grammar spells. -/
theorem spells_iff {f : Form} {text : List Char} {r : Except Fault Number} :
    Spells f text r ↔ (readBare text).form = some f ∧ (readBare text).value = r := by
  refine ⟨Spells.read, ?_⟩
  rintro ⟨hform, rfl⟩
  rcases readBare_cases text with rfl | ⟨mark, r, digits, hmark, rfl⟩ |
    ⟨negative, sign, rest, hsign, rfl, hread⟩
  · cases hform
    exact .empty
  · rw [readBare_radix hmark] at hform ⊢
    split at hform
    · rename_i hdigits
      cases hform
      rw [if_pos hdigits]
      exact .radix hmark (isDigits_iff.1 hdigits)
    · cases hform
  · rw [hread] at hform ⊢
    exact spells_of_readUnsigned hsign hread hform

/-- A text that is in no form is not a number. -/
theorem value_of_not_spells {text : List Char} (h : ∀ f r, ¬Spells f text r) :
    (readBare text).value = .ok (.float .nan) := by
  have hform : (readBare text).form = Option.none := by
    by_contra hsome
    obtain ⟨f, hf⟩ := Option.ne_none_iff_exists'.1 hsome
    exact h f _ (spells_iff.2 ⟨hf, rfl⟩)
  cases hread : readBare text with
  | none => rfl
  | _ => rw [hread] at hform; cases hform

/-- A text is in at most one form, and spells one number. -/
theorem Spells.unique {f f' : Form} {text : List Char} {r r' : Except Fault Number}
    (h : Spells f text r) (h' : Spells f' text r') : f = f' ∧ r = r' := by
  obtain ⟨hform, hvalue⟩ := h.read
  obtain ⟨hform', hvalue'⟩ := h'.read
  exact ⟨Option.some.inj (hform.symm.trans hform'), hvalue.symm.trans hvalue'⟩

/-! ## Characters -/

/-- A decimal digit is one of the ten characters. -/
theorem isDigit_ten {c : Char} (h : isDigit 10 c = true) : '0' ≤ c ∧ c ≤ '9' := by
  rw [isDigit, digitValue] at h
  split at h
  · assumption
  · split at h
    · simp at h
    · split at h <;> simp at h

/-- No digit is blank. -/
theorem not_blank_of_isDigit {c : Char} (h : isDigit 10 c = true) : Text.isBlank c = false := by
  obtain ⟨hlower, hupper⟩ := isDigit_ten h
  rw [Char.le_def, UInt32.le_iff_toNat_le] at hlower hupper
  have hall : ∀ n, n < 58 → 48 ≤ n → Text.blanks.contains n = false := by decide
  exact hall c.toNat (Nat.lt_succ_of_le hupper) hlower

theorem Sign.not_blank {negative : Bool} {sign : List Char} (h : Sign negative sign) :
    ∀ c ∈ sign, Text.isBlank c = false := by
  cases h with
  | none => simp
  | plus => exact List.forall_mem_singleton.2 (by decide)
  | minus => exact List.forall_mem_singleton.2 (by decide)

theorem Mantissa.not_blank {cs : List Char} {a : ℚ} (h : Mantissa cs a) :
    ∀ c ∈ cs, Text.isBlank c = false := by
  have hpoint : Text.isBlank '.' = false := by decide
  cases h with
  | whole hw => exact fun c hc => not_blank_of_isDigit (hw.2 c hc)
  | point hw hf =>
    refine List.forall_mem_append.2 ⟨fun c hc => not_blank_of_isDigit (hw.2 c hc), ?_⟩
    exact List.forall_mem_cons.2 ⟨hpoint, fun c hc => not_blank_of_isDigit (hf c hc)⟩
  | fraction hf =>
    exact List.forall_mem_cons.2 ⟨hpoint, fun c hc => not_blank_of_isDigit (hf.2 c hc)⟩

theorem Exponent.not_blank {cs : List Char} {e : ℤ} (h : Exponent cs e) :
    ∀ c ∈ cs, Text.isBlank c = false := by
  cases h with
  | none => simp
  | @some letter _ _ _ hletter hsign hdigits =>
    have hletter' : Text.isBlank letter = false := by
      rcases List.mem_pair.1 hletter with rfl | rfl <;> decide
    refine List.forall_mem_cons.2 ⟨hletter', List.forall_mem_append.2 ⟨hsign.not_blank, ?_⟩⟩
    exact fun c hc => not_blank_of_isDigit (hdigits.2 c hc)

/-- What denotes a number has no blanks. -/
theorem Denotes.not_blank {negative : Bool} {text : List Char} {q : ℚ}
    (h : Denotes negative text q) : ∀ c ∈ text, Text.isBlank c = false := by
  obtain ⟨hsign, hmantissa, hexponent⟩ := h
  exact List.forall_mem_append.2 ⟨hsign.not_blank,
    List.forall_mem_append.2 ⟨hmantissa.not_blank, hexponent.not_blank⟩⟩

/-- A whole numeral is a decimal without a point and an exponent. -/
theorem Whole.denotes {negative : Bool} {digits text : List Char} (h : Whole negative digits text) :
    Denotes negative text (if negative then -(number 10 digits : ℚ) else number 10 digits) := by
  obtain ⟨hsign, hdigits⟩ := h
  refine .intro hsign ?_
  simpa using Unsigned.intro (.whole hdigits) .none

/-- A whole numeral has digits and signs only. -/
theorem Whole.mem {negative : Bool} {digits text : List Char} (h : Whole negative digits text) :
    '.' ∉ text ∧ 'e' ∉ text := by
  obtain ⟨hsign, hdigits⟩ := h
  have hmem : ∀ c, isDigit 10 c = false → c ∉ digits :=
    fun c hc hmem => by simp [hdigits.2 c hmem] at hc
  cases hsign <;> simp [hmem '.' (by decide), hmem 'e' (by decide)]

/-- Ones denote a number with as many digits. -/
theorem pow_le_number_replicate (k : ℕ) : 10 ^ k ≤ number 10 (List.replicate (k + 1) '1') := by
  rw [List.replicate_succ, ← List.singleton_append, number_append, List.length_replicate]
  exact (Nat.le_mul_of_pos_left _ (by decide)).trans (Nat.le_add_right _ _)

end Numeral

/-! ## Texts -/

/-- A text without blanks is left alone. -/
theorem Text.stripBlanks_of_not_blank {cs : List Char} (h : ∀ c ∈ cs, isBlank c = false) :
    stripBlanks cs = cs := by
  have hdrop : ∀ ds : List Char, (∀ c ∈ ds, isBlank c = false) → ds.dropWhile isBlank = ds := by
    intro ds hds
    cases ds with
    | nil => rfl
    | cons c ds => exact List.dropWhile_cons_of_neg (by simp [hds c List.mem_cons_self])
  rw [stripBlanks, hdrop cs h, hdrop _ fun c hc => h c (List.mem_reverse.1 hc),
    List.reverse_reverse]

namespace Value

open Numeral (Form Spells Whole Denotes)

/-- A text that spells a number is read as this number, if it has no blanks. -/
theorem toNumber_of_spells {f : Form} {s : String} {r : Except Fault Number}
    (hblank : ∀ c ∈ s.toList, Text.isBlank c = false) (h : Spells f s.toList r) :
    (text s).toNumber = r := by
  rw [toNumber, Numeral.read, Text.stripBlanks_of_not_blank hblank]
  exact h.read.2

/-- The number of a whole numeral. -/
theorem toNumber_of_whole {negative : Bool} {digits : List Char} {s : String}
    (h : Whole negative digits s.toList) (hlength : digits.length ≤ 4300) :
    (text s).toNumber = .ok (.ofInt (Numeral.signed negative (Numeral.number 10 digits))) :=
  toNumber_of_spells h.denotes.not_blank (.whole h hlength)

/-- The number of any other decimal. -/
theorem toNumber_of_decimal {negative : Bool} {s : String} {q : ℚ}
    (h : Denotes negative s.toList q)
    (hwhole : ∀ negative' digits, ¬Whole negative' digits s.toList) :
    (text s).toNumber = .ok (.float (.ofRat negative q)) :=
  toNumber_of_spells h.not_blank (.decimal h hwhole)

/-- Digits with a point at the end are read as the infinity if they denote more than any double. -/
theorem toNumber_point_of_large {digits : List Char} {s : String} {k : ℕ}
    (h : Numeral.Digits 10 digits) (hk : 310 < k) (hlarge : 10 ^ k ≤ Numeral.number 10 digits)
    (hs : s.toList = digits ++ ['.']) : (text s).toNumber = .ok (.float (.infinite false)) := by
  have hpos : 0 < Numeral.number 10 digits := (Nat.pow_pos (by decide)).trans_le hlarge
  have hmagnitude : (k : ℤ) ≤ (Decimal.mk (Numeral.number 10 digits) 0).magnitude := by
    rw [Decimal.le_magnitude_iff hpos, Decimal.toRat, zpow_natCast, zpow_zero, mul_one]
    exact_mod_cast hlarge
  have hinfinite : Double.ofRat false (Numeral.number 10 digits) = .infinite false := by
    have hdecimal := Double.ofDecimal_eq_ofRat false ⟨Numeral.number 10 digits, 0⟩
    rw [Double.ofDecimal, if_neg hpos.ne', if_pos (by omega), Decimal.toRat, zpow_zero,
      mul_one] at hdecimal
    exact hdecimal.symm
  have hdenotes : Denotes false s.toList (Numeral.number 10 digits) := by
    have hmantissa := Numeral.Mantissa.point h (List.forall_mem_nil _)
    have hunsigned := Numeral.Unsigned.intro hmantissa .none
    rw [hs]
    simpa [Numeral.number] using Denotes.intro .none hunsigned
  have hpoint : '.' ∈ s.toList := by simp [hs]
  rw [toNumber_of_decimal hdenotes fun _ _ hwhole => hwhole.mem.1 hpoint, hinfinite]

/-- The number of a text is the one that the grammar gives the text without the blanks around it:
    the number of its form, which for a whole numeral of more than 4300 digits is the fault, and a
    NaN if it has none. No text has two forms, or two numbers in one. -/
theorem toNumber_text_grammar (s : String) :
    (∀ form r, Spells form (Text.stripBlanks s.toList) r → (text s).toNumber = r) ∧
    ((∀ form r, ¬Spells form (Text.stripBlanks s.toList) r) →
      (text s).toNumber = .ok (.float .nan)) ∧
    ∀ t form r form' r', Spells form t r → Spells form' t r' → form = form' ∧ r = r' := by
  refine ⟨fun form r h => ?_, fun h => ?_, fun t form r form' r' h h' => h.unique h'⟩
  · exact h.read.2
  · exact Numeral.value_of_not_spells h

/-- What a text of 4301 ones should be read as, and is not: no form of a number fits it, but its
    conversion is a fault instead of a NaN. With a point at the end it is a decimal, which is read
    as the infinity. -/
theorem toNumber_text_overlong :
    let s := String.ofList (List.replicate 4301 '1')
    (∀ form r, form ≠ .overlong → ¬Spells form (Text.stripBlanks s.toList) r) ∧
      (text s).toNumber = .error .numeralTooLong ∧
      (text (s ++ ".")).toNumber = .ok (.float (.infinite false)) := by
  intro s
  have hones : ∀ c ∈ List.replicate 4301 '1', c = '1' := fun c hc => List.eq_of_mem_replicate hc
  have hlength : 4300 < (List.replicate 4301 '1').length := by
    rw [List.length_replicate]
    decide
  have hstrip : Text.stripBlanks s.toList = List.replicate 4301 '1' := by
    rw [String.toList_ofList]
    refine Text.stripBlanks_of_not_blank fun c hc => ?_
    rw [hones c hc]
    decide
  have hdigits : Numeral.Digits 10 (List.replicate 4301 '1') := by
    refine ⟨List.ne_nil_of_length_pos (by omega), fun c hc => ?_⟩
    rw [hones c hc]
    decide
  have hspells : Spells .overlong (Text.stripBlanks s.toList) (.error .numeralTooLong) := by
    rw [hstrip]
    exact .overlong (.intro .none hdigits) hlength
  refine ⟨fun form r hform h => hform (h.unique hspells).1, hspells.read.2, ?_⟩
  have hpoint : (s ++ ".").toList = List.replicate 4301 '1' ++ ['.'] := by
    rw [String.toList_append, String.toList_ofList]
    rfl
  exact toNumber_point_of_large hdigits (by decide) (Numeral.pow_le_number_replicate 4300) hpoint

end Value

end TaintWeave
