import TaintWeave.Proofs.Text.Lines
import TaintWeave.Text.Dedent

/-!
# Texts with a margin

A text whose lines all stand behind one margin is given back without it, as long as each of them has
a character that is no blank.

* `Text.margin_map`: the margin of such lines.
* `Text.dedent_endLines`: the text without it.
-/

namespace TaintWeave.Text

variable {m : List Char} {line : List Char} {lines : List (List Char)}

/-- A line starts with a character that is no part of a margin. -/
def StartsText (line : List Char) : Prop := ∃ c cs, line = c :: cs ∧ isMargin c = false

/-- What a line has in common with itself is the line. -/
theorem commonStart_self (cs : List Char) : commonStart cs cs = cs := by
  induction cs with
  | nil => rfl
  | cons c cs ih => rw [commonStart, if_pos rfl, ih]

/-- A line behind a margin is not blank. -/
theorem all_append_eq_false (h : StartsText line) : (m ++ line).all isMargin = false := by
  obtain ⟨c, cs, rfl, hc⟩ := h
  simp [hc]

/-- The margin of a line is what it stands behind. -/
theorem marginOf?_append (hm : ∀ c ∈ m, isMargin c = true) (h : StartsText line) :
    marginOf? (m ++ line) = some m := by
  rw [marginOf?, all_append_eq_false h, List.takeWhile_append_of_pos hm]
  obtain ⟨c, cs, rfl, hc⟩ := h
  rw [List.takeWhile_cons_of_neg (by simp [hc]), List.append_nil]
  rfl

/-- The margin of lines behind it, and of a blank one after them. -/
theorem margin_map (hm : ∀ c ∈ m, isMargin c = true) (h : ∀ line ∈ lines, StartsText line)
    (hne : lines ≠ []) : margin (lines.map (m ++ ·) ++ [[]]) = m := by
  have hmargins : ∀ line ∈ lines, (marginOf? ∘ (m ++ ·)) line = some m :=
    fun line hline => marginOf?_append hm (h line hline)
  obtain ⟨first, others, rfl⟩ := List.exists_cons_of_ne_nil hne
  have hothers : (others.map fun _ => m).foldl commonStart m = m := by
    clear h hne hmargins
    induction others with
    | nil => rfl
    | cons _ others ih => rw [List.map_cons, List.foldl_cons, commonStart_self, ih]
  have hall : ((first :: others).map (m ++ ·) ++ [[]]).filterMap marginOf? =
      m :: others.map fun _ => m := by
    rw [List.filterMap_append, List.filterMap_map, List.filterMap_congr hmargins]
    change (first :: others).filterMap (some ∘ fun _ => m) ++ [] = _
    rw [List.filterMap_eq_map, List.append_nil, List.map_cons]
  rw [margin, hall]
  exact hothers

/-- Lines behind a margin are given back without it; what is left of the margin after the last of
    them is left out. -/
theorem dedent_endLines (hm : ∀ c ∈ m, isMargin c = true)
    (h : ∀ line ∈ lines, StartsText line ∧ '\n' ∉ line) (hne : lines ≠ []) :
    dedent (endLines (lines.map (m ++ ·)) ++ m) = endLines lines := by
  have hfeed : '\n' ∉ m := fun hmem => absurd (hm _ hmem) (by decide)
  have hlines : ∀ line ∈ lines.map (m ++ ·), '\n' ∉ line := by
    rw [List.forall_mem_map]
    intro line hline
    rw [List.mem_append, not_or]
    exact ⟨hfeed, (h line hline).2⟩
  have hkept : (lines.map (m ++ ·)).map emptyIfBlank = lines.map (m ++ ·) := by
    rw [List.map_map]
    refine List.map_congr_left fun line hline => ?_
    rw [Function.comp_apply, emptyIfBlank, all_append_eq_false (h line hline).1]
    rfl
  have hblank : emptyIfBlank m = [] := if_pos (List.all_eq_true.2 hm)
  have hempty : removeMargin m [] = [] := by
    rw [removeMargin, List.drop_nil, ite_self]
  have hremove : ∀ line ∈ lines, (removeMargin m ∘ (m ++ ·)) line = line := fun line _ => by
    rw [Function.comp_apply, removeMargin,
      if_pos (List.isPrefixOf_iff_prefix.2 (List.prefix_append m line)), List.drop_left]
  rw [dedent, splitLines_endLines_append, flatMap_splitLines hlines, splitLines_of_notMem hfeed,
    List.map_append, List.map_singleton, hkept, hblank,
    margin_map hm (fun line hline => (h line hline).1) hne, List.map_append, List.map_singleton,
    hempty, List.map_map, List.map_congr_left hremove, List.map_id', endLines_eq_intercalate]

end TaintWeave.Text
