import Mathlib.Data.List.Basic
import Mathlib.Tactic.SplitIfs
import TaintWeave.Text.Identifier
import TaintWeave.Text.Lines
import TaintWeave.Text.Quoted

/-!
# Texts on one line

A text that is put together from lines is split into these lines again, if no line has a line feed
in it. Numerals, identifiers and literals have none.

* `Text.endLines`: lines, each ended by a line feed.
* `Text.splitLines_endLines_append`: the lines of a text are those of its parts, one after the
  other; lines are those of themselves (`Text.flatMap_splitLines`).
* `Text.splitLines_dropFinalLineFeeds_endLines`: the same without the line feeds at the end.
* `Text.lineFeed_notMem_quote`, `Text.notMem_of_isIdentifier`: texts on one line.
* `Text.mem_trim`: what is dropped at the ends of a text.
-/

namespace TaintWeave.Text

/-! ## Lines -/

/-- The lines of a text are what stands between its line feeds. -/
theorem splitLines_eq_splitOn (cs : List Char) : splitLines cs = cs.splitOn '\n' := by
  induction cs with
  | nil => rfl
  | cons c cs ih =>
    rw [splitLines, ih]
    unfold List.splitOn
    rw [List.splitOnP_cons_eq_if_modifyHead]
    by_cases hc : c = '\n'
    · rw [if_pos hc, if_pos (beq_iff_eq.2 hc)]
    · rw [if_neg hc, if_neg (mt beq_iff_eq.1 hc)]
      cases hlines : List.splitOnP (· == '\n') cs with
      | nil => exact absurd hlines (List.splitOnP_ne_nil _ cs)
      | cons line lines => rfl

/-- A text without a line feed is one line. -/
theorem splitLines_of_notMem {line : List Char} (h : '\n' ∉ line) : splitLines line = [line] := by
  rw [splitLines_eq_splitOn]
  exact List.splitOn_eq_singleton h

/-- The lines of a text are those before and those after a line feed. -/
theorem splitLines_append (cs ds : List Char) :
    splitLines (cs ++ '\n' :: ds) = splitLines cs ++ splitLines ds := by
  simp only [splitLines_eq_splitOn]
  exact List.splitOnP_append_cons cs ds (by decide)

/-- Lines, each ended by a line feed. -/
def endLines (lines : List (List Char)) : List Char := lines.flatMap (· ++ ['\n'])

/-- Line feeds that end lines are line feeds between them and what comes last. -/
theorem endLines_eq_intercalate (lines : List (List Char)) :
    endLines lines = ['\n'].intercalate (lines ++ [[]]) := by
  induction lines with
  | nil => rfl
  | cons line lines ih =>
    rw [endLines, List.flatMap_cons, ← endLines, ih]
    cases lines <;> simp

/-- The lines of texts that are ended are those of each, and after them those of what comes last. -/
theorem splitLines_endLines_append (texts : List (List Char)) (last : List Char) :
    splitLines (endLines texts ++ last) = texts.flatMap splitLines ++ splitLines last := by
  induction texts with
  | nil => rfl
  | cons text texts ih =>
    have hfirst : endLines (text :: texts) ++ last = text ++ '\n' :: (endLines texts ++ last) := by
      simp [endLines]
    rw [hfirst, splitLines_append, ih, List.flatMap_cons, List.append_assoc]

/-- Lines are the lines of themselves. -/
theorem flatMap_splitLines {lines : List (List Char)} (h : ∀ line ∈ lines, '\n' ∉ line) :
    lines.flatMap splitLines = lines := by
  have hlines : lines.flatMap splitLines = lines.flatMap fun line => [line] := by
    rw [List.flatMap_def, List.flatMap_def,
      List.map_congr_left fun line hline => splitLines_of_notMem (h line hline)]
  rw [hlines, List.flatMap_singleton']

/-- Of lines that are ended, the last one loses its end with the line feeds at the end of the
    text, unless it is empty. -/
theorem dropFinalLineFeeds_endLines {lines : List (List Char)} {last : List Char}
    (hlast : last ≠ []) (h : '\n' ∉ last) :
    dropFinalLineFeeds (endLines (lines ++ [last])) = endLines lines ++ last := by
  obtain ⟨cs, c, rfl⟩ := List.eq_nil_or_concat' last |>.resolve_left hlast
  have hc : c ≠ '\n' := fun hc => h (by simp [hc])
  simp [dropFinalLineFeeds, endLines, hc]

/-- Lines of which the last is not empty are split again without the line feeds at the end. -/
theorem splitLines_dropFinalLineFeeds_endLines {lines : List (List Char)} {last : List Char}
    (hlast : last ≠ []) (h : ∀ line ∈ lines ++ [last], '\n' ∉ line) :
    splitLines (dropFinalLineFeeds (endLines (lines ++ [last]))) = lines ++ [last] := by
  rw [List.forall_mem_append, List.forall_mem_singleton] at h
  rw [dropFinalLineFeeds_endLines hlast h.2, splitLines_endLines_append, flatMap_splitLines h.1,
    splitLines_of_notMem h.2]

/-! ## Texts on one line -/

/-- No numeral has a line feed in it. -/
theorem lineFeed_notMem_toDigits {base : Nat} (hbase : 1 < base) (hbase' : base ≤ 16) (n : Nat) :
    '\n' ∉ base.toDigits n := by
  have hdigit : ∀ d < 16, d.digitChar ≠ '\n' := by decide
  induction n using Nat.strongRecOn with
  | ind n ih =>
    rw [Nat.toDigits_eq_if hbase]
    split
    · rename_i hn
      rw [List.mem_singleton]
      exact (hdigit n (by omega)).symm
    · rename_i hn
      have hlt : n / base < n := Nat.div_lt_self (by omega) hbase
      have hmod : n % base < base := Nat.mod_lt n (by omega)
      rw [List.mem_append, List.mem_singleton, not_or]
      exact ⟨ih _ hlt, (hdigit _ (by omega)).symm⟩

/-- No decimal numeral has a line feed in it. -/
theorem lineFeed_notMem_toString (n : Nat) : '\n' ∉ (toString n).toList := by
  rw [Nat.toString_eq_ofList_toDigits, String.toList_ofList]
  exact lineFeed_notMem_toDigits (by decide) (by decide) n

/-- No numeral of some width has a line feed in it. -/
theorem lineFeed_notMem_hexDigits (width n : Nat) : '\n' ∉ hexDigits width n := by
  intro h
  rcases List.mem_append.1 h with h | h
  · exact absurd (List.eq_of_mem_replicate h) (by decide)
  · exact lineFeed_notMem_toDigits (by decide) (by decide) n h

/-- No character of a literal stands for itself as a line feed. -/
theorem lineFeed_notMem_quoteChar {mark : Char} (hmark : mark ≠ '\n') (c : Char) :
    '\n' ∉ quoteChar mark c := by
  have hhex (width : Nat) : '\n' ∉ hexDigits width c.toNat := lineFeed_notMem_hexDigits width _
  unfold quoteChar
  split_ifs with hescaped hfeed
  · rcases hescaped with rfl | rfl
    · simp [hmark.symm]
    · decide
  · decide
  · decide
  · decide
  · exact fun h => hfeed (List.mem_singleton.1 h).symm
  · simp [hhex 2]
  · simp [hhex 4]
  · simp [hhex 8]

/-- No literal has a line feed in it. -/
theorem lineFeed_notMem_quote (s : String) : '\n' ∉ (quote s).toList := by
  have hmark : quoteMark s.toList ≠ '\n' := by
    unfold quoteMark
    split <;> decide
  rw [quote, String.toList_ofList]
  simp only [List.cons_append, List.mem_cons, List.mem_append, List.mem_flatMap, not_or, not_exists,
    not_and, List.not_mem_nil, not_false_iff, and_true]
  exact ⟨hmark.symm, fun c _ => lineFeed_notMem_quoteChar hmark c, hmark.symm⟩

/-- An identifier has no characters in it that are no parts of identifiers. -/
theorem notMem_of_isIdentifier {cs : List Char} (h : isIdentifier cs = true) {c : Char}
    (hstart : identifierStarts.contains c.toNat = false)
    (hpart : identifierParts.contains c.toNat = false) : c ∉ cs := by
  cases cs with
  | nil => cases h
  | cons d ds =>
    rw [isIdentifier, Bool.and_eq_true, List.all_eq_true] at h
    rw [List.mem_cons, not_or]
    refine ⟨?_, fun hmem => ?_⟩
    · rintro rfl
      rw [h.1] at hstart
      cases hstart
    · rw [h.2 c hmem] at hpart
      cases hpart

/-! ## Ends of texts -/

variable {α : Type} {p : α → Bool} {a : α} {as : List α}

/-- What is left when items are dropped in front has all others in it. -/
theorem mem_dropWhile (h : a ∈ as) (ha : p a = false) : a ∈ as.dropWhile p := by
  have hmem : a ∈ as.takeWhile p ∨ a ∈ as.dropWhile p :=
    List.mem_append.1 (List.takeWhile_append_dropWhile.symm ▸ h)
  refine hmem.resolve_left fun htake => ?_
  rw [List.all_eq_true.1 List.all_takeWhile a htake] at ha
  cases ha

/-- What is left when items are dropped at both ends has all others in it. -/
theorem mem_trim (h : a ∈ as) (ha : p a = false) :
    a ∈ ((as.dropWhile p).reverse.dropWhile p).reverse :=
  List.mem_reverse.2 (mem_dropWhile (List.mem_reverse.2 (mem_dropWhile h ha)) ha)

end TaintWeave.Text
