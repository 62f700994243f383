import Mathlib.Data.List.DropRight
import TaintWeave.Proofs.Number.Reading

/-!
# Blanks around a numeral

A numeral may have *space* around it: the white space and the line terminators of the language. What
is taken off before a numeral is read are the *blank* characters, and these are not the same. Five
control characters are blank and no space, so that a text with one of them at an end is read as if
it were not there. The byte order mark is space and not blank, so that a text with one is a NaN.
These six are all: at any other character the reading follows the language.

A character is *neutral* if it changes no number, neither in front of a text nor after it, and
*refused* if no text is a number with it in front.

* `Text.isBlank_iff`: which characters are blank, in terms of space.
* `Value.neutral_iff`, `Value.refused_iff`: the blank characters are neutral, and what is not blank
  and begins no numeral is refused.
* `Value.followsSpace_iff`: where the reading follows the language.
* `Value.not_followsSpace_byteOrderMark`: where it does not.
-/

namespace TaintWeave

/-- A code point lies in ranges in increasing order if it lies in one of them. -/
theorem Ranges.contains_iff {ranges : Ranges} (h : ranges.Pairwise fun r t => r.1 ≤ t.1)
    {code : ℕ} : ranges.contains code = true ↔ ∃ r ∈ ranges, r.1 ≤ code ∧ code ≤ r.2 := by
  induction ranges with
  | nil => simp [Ranges.contains]
  | cons r rest ih =>
    rw [List.pairwise_cons] at h
    rw [Ranges.contains, List.exists_mem_cons_iff, ← ih h.2]
    split
    · rename_i hlt
      -- No range further on begins before this one.
      have hrest : ¬Ranges.contains code rest = true := by
        rw [ih h.2]
        rintro ⟨t, ht, hle, -⟩
        exact absurd ((h.1 t ht).trans hle) (not_le.2 hlt)
      exact iff_of_false Bool.false_ne_true (not_or.2 ⟨fun hr => absurd hr.1 (not_le.2 hlt), hrest⟩)
    · rename_i hge
      rw [Bool.or_eq_true, decide_eq_true_iff, and_iff_right (not_lt.1 hge)]

/-! ## Space -/

namespace Text

/-- The white space of the language: the tabs, the form feed, the space separators of Unicode and
    the byte order mark. -/
def whiteSpace : Ranges :=
  [(0x9, 0x9), (0xB, 0xC), (0x20, 0x20), (0xA0, 0xA0), (0x1680, 0x1680), (0x2000, 0x200A),
   (0x202F, 0x202F), (0x205F, 0x205F), (0x3000, 0x3000), (0xFEFF, 0xFEFF)]

/-- The line terminators of the language: line feed, carriage return, and the separators of lines
    and paragraphs. -/
def lineTerminators : Ranges := [(0xA, 0xA), (0xD, 0xD), (0x2028, 0x2029)]

/-- Whether a character is white space or a line terminator. -/
def isSpace (c : Char) : Bool := whiteSpace.contains c.toNat || lineTerminators.contains c.toNat

/-- The blank control characters that are no space: the separators of files, groups, records and
    units, and the next line. -/
def blankControls : Ranges := [(0x1C, 0x1F), (0x85, 0x85)]

/-- The byte order mark. -/
def byteOrderMark : Char := '\ufeff'

/-- What is blank: space but for the byte order mark, and five control characters. -/
theorem isBlank_iff (c : Char) :
    isBlank c = true ↔
      isSpace c = true ∧ c ≠ byteOrderMark ∨ blankControls.contains c.toNat = true := by
  have hmark : c = byteOrderMark ↔ c.toNat = 0xFEFF := by
    rw [← Char.toNat_inj]
    rfl
  rw [isBlank, isSpace, Bool.or_eq_true, Ranges.contains_iff (by decide),
    Ranges.contains_iff (by decide), Ranges.contains_iff (by decide),
    Ranges.contains_iff (by decide), ne_eq, hmark]
  simp only [blanks, whiteSpace, lineTerminators, blankControls, List.exists_mem_cons_iff,
    List.not_mem_nil, false_and, exists_false, or_false]
  omega

/-- None of the blank control characters is space. -/
theorem isSpace_of_blankControls {c : Char} (h : blankControls.contains c.toNat = true) :
    isSpace c = false := by
  rw [Bool.eq_false_iff, ne_eq, isSpace, Bool.or_eq_true, Ranges.contains_iff (by decide),
    Ranges.contains_iff (by decide)]
  rw [Ranges.contains_iff (by decide)] at h
  simp only [whiteSpace, lineTerminators, blankControls, List.exists_mem_cons_iff,
    List.not_mem_nil, false_and, exists_false, or_false] at h ⊢
  omega

/-! ## Blanks at the ends -/

/-- A blank character in front of a text is taken off. -/
theorem stripBlanks_cons_of_blank {c : Char} (hc : isBlank c = true) (cs : List Char) :
    stripBlanks (c :: cs) = stripBlanks cs := by
  rw [stripBlanks, List.dropWhile_cons_of_pos hc, stripBlanks]

/-- A blank character after a text is taken off. -/
theorem stripBlanks_concat_of_blank {c : Char} (hc : isBlank c = true) (cs : List Char) :
    stripBlanks (cs ++ [c]) = stripBlanks cs := by
  change ((cs ++ [c]).dropWhile isBlank).rdropWhile isBlank =
    (cs.dropWhile isBlank).rdropWhile isBlank
  rw [List.dropWhile_append]
  split
  · -- Nothing is left of a text of blanks.
    rename_i hempty
    rw [List.isEmpty_iff.1 hempty, List.dropWhile_cons_of_pos hc]
    rfl
  · exact List.rdropWhile_concat_pos _ _ _ hc

/-- Any other character in front of a text stays there. -/
theorem exists_stripBlanks_cons {c : Char} (hc : isBlank c = false) (cs : List Char) :
    ∃ rest, stripBlanks (c :: cs) = c :: rest := by
  have hc' : ¬isBlank c = true := by simp [hc]
  refine ⟨cs.rdropWhile isBlank, ?_⟩
  rw [stripBlanks, List.dropWhile_cons_of_neg hc', List.reverse_cons, List.dropWhile_append]
  split
  · rename_i hempty
    rw [List.dropWhile_cons_of_neg hc', List.rdropWhile, List.isEmpty_iff.1 hempty]
    rfl
  · rw [List.reverse_append]
    rfl

end Text

/-! ## The first character of a numeral -/

namespace Numeral

/-- The characters that a numeral can begin with: digits, signs, the point, and the first letter of
    the word for infinity. -/
def starts : List Char := "0123456789+-.I".toList

/-- A numeral can begin with any digit. -/
theorem mem_starts_of_isDigit {c : Char} (h : isDigit 10 c = true) : c ∈ starts := by
  obtain ⟨hlower, hupper⟩ := isDigit_ten h
  rw [Char.le_def, UInt32.le_iff_toNat_le] at hlower hupper
  have hall : ∀ n, n < 58 → 48 ≤ n → Char.ofNat n ∈ starts := by decide
  rw [← Char.ofNat_toNat c]
  exact hall c.toNat (Nat.lt_succ_of_le hupper) hlower

theorem Denotes.mem_starts {negative : Bool} {text : List Char} {q : ℚ}
    (h : Denotes negative text q) : ∀ c ∈ text.head?, c ∈ starts := by
  obtain ⟨hsign, hmantissa, -⟩ := h
  cases hsign with
  | plus | minus =>
    rintro c ⟨⟩
    decide
  | none =>
    cases hmantissa with
    | whole hw | point hw _ =>
      obtain ⟨c, cs, rfl⟩ := List.exists_cons_of_ne_nil hw.1
      rintro _ ⟨⟩
      exact mem_starts_of_isDigit (hw.2 c List.mem_cons_self)
    | fraction _ =>
      rintro c ⟨⟩
      decide

/-- What spells a number begins with one of these characters, if there is a first one. -/
theorem Spells.mem_starts {f : Form} {text : List Char} {r : Except Fault Number}
    (h : Spells f text r) : ∀ c ∈ text.head?, c ∈ starts := by
  cases h with
  | empty => exact nofun
  | radix _ _ =>
    rintro c ⟨⟩
    decide
  | whole hwhole _ | overlong hwhole _ => exact hwhole.denotes.mem_starts
  | infinity hsign =>
    cases hsign with
    | none | plus | minus =>
      rintro c ⟨⟩
      decide
  | decimal hdenotes _ => exact hdenotes.mem_starts

end Numeral

/-! ## Neutral and refused characters -/

namespace Value

open Numeral (starts)

/-- Whether a character does not change the number of any text, in front of it or after it. -/
def Neutral (c : Char) : Prop :=
  ∀ s : String, (text (String.singleton c ++ s)).toNumber = (text s).toNumber ∧
    (text (s ++ String.singleton c)).toNumber = (text s).toNumber

/-- Whether no text is a number with a character in front. -/
def Refused (c : Char) : Prop :=
  ∀ s : String, (text (String.singleton c ++ s)).toNumber = .ok (.float .nan)

/-- Whether the reading of numerals treats a character as the language has it: space is neutral, and
    what is no space and begins no numeral is refused. -/
def FollowsSpace (c : Char) : Prop :=
  (Text.isSpace c = true → Neutral c) ∧ (Text.isSpace c = false → c ∉ starts → Refused c)

variable {c : Char}

theorem neutral_of_blank (hc : Text.isBlank c = true) : Neutral c := by
  intro s
  simp only [toNumber, Numeral.read, String.toList_append, String.toList_singleton,
    List.singleton_append, Text.stripBlanks_cons_of_blank hc, Text.stripBlanks_concat_of_blank hc,
    and_self]

theorem refused_of_notMem_starts (hc : Text.isBlank c = false) (hstart : c ∉ starts) :
    Refused c := by
  intro s
  refine (toNumber_text_grammar _).2.1 fun form r h => ?_
  rw [String.toList_append, String.toList_singleton, List.singleton_append] at h
  obtain ⟨rest, hrest⟩ := Text.exists_stripBlanks_cons hc s.toList
  rw [hrest] at h
  exact hstart (h.mem_starts c rfl)

/-- No character is both: alone it would be zero and a NaN. -/
theorem not_refused_of_neutral (hc : Neutral c) : ¬Refused c := by
  intro hrefused
  have hempty : (text "").toNumber ≠ .ok (.float .nan) := by decide
  exact hempty ((hc "").1.symm.trans (hrefused ""))

/-- What begins a numeral is not neutral: alone it is another number than nothing, but for the digit
    zero, and this one counts after another digit. -/
theorem not_neutral_of_mem_starts (hc : c ∈ starts) : ¬Neutral c := by
  have hall : starts.all fun c =>
      (text (String.singleton c ++ "")).toNumber ≠ (text "").toNumber ∨
      (text ("1" ++ String.singleton c)).toNumber ≠ (text "1").toNumber := by decide +kernel
  intro h
  rcases of_decide_eq_true (List.all_eq_true.1 hall c hc) with hempty | hone
  · exact hempty (h "").1
  · exact hone (h "1").2

/-- What begins a numeral is not refused: a digit is one alone, a sign and a point with a digit
    after it, and the letter with the rest of the word. -/
theorem not_refused_of_mem_starts (hc : c ∈ starts) : ¬Refused c := by
  have hall : starts.all fun c =>
      (text (String.singleton c ++ "1")).toNumber ≠ .ok (.float .nan) ∨
      (text (String.singleton c ++ "nfinity")).toNumber ≠ .ok (.float .nan) := by decide +kernel
  intro h
  rcases of_decide_eq_true (List.all_eq_true.1 hall c hc) with hdigit | hword
  · exact hdigit (h "1")
  · exact hword (h "nfinity")

/-- No numeral begins with a blank character. -/
theorem notMem_starts_of_blank (hc : Text.isBlank c = true) : c ∉ starts := by
  have hall : starts.all fun c => !Text.isBlank c := by decide
  intro h
  have hblank := List.all_eq_true.1 hall c h
  simp [hc] at hblank

/-- The neutral characters are the blank ones. -/
theorem neutral_iff : Neutral c ↔ Text.isBlank c = true := by
  refine ⟨fun h => ?_, neutral_of_blank⟩
  by_contra hblank
  rw [Bool.not_eq_true] at hblank
  have hstart : c ∈ starts := by
    by_contra hstart
    exact not_refused_of_neutral h (refused_of_notMem_starts hblank hstart)
  exact not_neutral_of_mem_starts hstart h

/-- The refused characters are those that are not blank and begin no numeral. -/
theorem refused_iff : Refused c ↔ Text.isBlank c = false ∧ c ∉ starts := by
  refine ⟨fun h => ⟨?_, fun hstart => not_refused_of_mem_starts hstart h⟩,
    fun h => refused_of_notMem_starts h.1 h.2⟩
  rw [Bool.eq_false_iff]
  exact fun hblank => not_refused_of_neutral (neutral_of_blank hblank) h

/-- Numerals are read as the language has it at all characters but six: the five blank control
    characters, which are neutral, and the byte order mark, which is refused. For the rest the
    neutral characters are space, and the refused ones are those that are no space and begin no
    numeral. -/
theorem followsSpace_iff (c : Char) :
    (FollowsSpace c ↔ ¬(Text.blankControls.contains c.toNat = true ∨ c = Text.byteOrderMark)) ∧
    (Neutral c ↔ Text.isSpace c = true ∧ c ≠ Text.byteOrderMark ∨
      Text.blankControls.contains c.toNat = true) ∧
    (Refused c ↔ Text.isSpace c = false ∧ Text.blankControls.contains c.toNat = false ∧
      c ∉ starts ∨ c = Text.byteOrderMark) := by
  have hneutral := (neutral_iff (c := c)).trans (Text.isBlank_iff c)
  have hmark : Text.isSpace Text.byteOrderMark = true ∧
      Text.blankControls.contains Text.byteOrderMark.toNat = false ∧
      Text.byteOrderMark ∉ starts := by decide
  have hrefused : Refused c ↔ Text.isSpace c = false ∧
      Text.blankControls.contains c.toNat = false ∧ c ∉ starts ∨ c = Text.byteOrderMark := by
    rw [refused_iff, Bool.eq_false_iff, ne_eq, Text.isBlank_iff]
    by_cases h : c = Text.byteOrderMark
    · subst h
      simp [hmark]
    · simp [h, and_assoc]
  refine ⟨?_, hneutral, hrefused⟩
  rw [FollowsSpace, hneutral, hrefused]
  by_cases h : c = Text.byteOrderMark
  · subst h
    simp [hmark]
  · by_cases hcontrol : Text.blankControls.contains c.toNat = true
    · have hstart := notMem_starts_of_blank ((Text.isBlank_iff c).2 (.inr hcontrol))
      simp [h, hcontrol, Text.isSpace_of_blankControls hcontrol, hstart]
    · simp_all

/-- The byte order mark is space, and yet a one after it is a NaN; the separator of files is no
    space and begins no numeral, and yet a one after it is read. -/
theorem not_followsSpace_byteOrderMark :
    (text "1").toNumber = .ok (.int 1) ∧
    (text "\ufeff1").toNumber = .ok (.float .nan) ∧ ¬FollowsSpace '\ufeff' ∧
    (text "\x1c1").toNumber = .ok (.int 1) ∧ ¬FollowsSpace '\x1c' := by
  have hone : (text "1").toNumber = .ok (.int 1) := by decide +kernel
  have hmark : (text "\ufeff1").toNumber = .ok (.float .nan) := by decide +kernel
  have hcontrol : (text "\x1c1").toNumber = .ok (.int 1) := by decide +kernel
  refine ⟨hone, hmark, fun h => ?_, hcontrol, fun h => ?_⟩
  · have hneutral : (text "\ufeff1").toNumber = (text "1").toNumber := (h.1 (by decide) "1").1
    rw [hmark, hone] at hneutral
    cases hneutral
  · have hrefused : (text "\x1c1").toNumber = .ok (.float .nan) := h.2 (by decide) (by decide) "1"
    rw [hcontrol] at hrefused
    cases hrefused

end Value

end TaintWeave
