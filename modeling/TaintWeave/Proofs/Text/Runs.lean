import Mathlib.Data.List.TakeWhile

/-!
# Runs of items

A text is often taken apart where a run of characters ends: the longest part at its front whose
characters have some property. What is left is empty, or it begins with a character without the
property.

* `Text.takeWhile_run`, `Text.dropWhile_run`: a run, and what is left after it.
* `Text.run_append_inj`: there is only one way to split a text where a run ends.
-/

namespace TaintWeave.Text

variable {α : Type} {p : α → Bool} {run run' rest rest' : List α}

/-- A run is taken as far as it goes. -/
theorem takeWhile_run (hrun : ∀ a ∈ run, p a = true) (hrest : ∀ a ∈ rest.head?, p a = false) :
    (run ++ rest).takeWhile p = run := by
  rw [List.takeWhile_append_of_pos hrun]
  cases rest with
  | nil => exact List.append_nil run
  | cons a as => rw [List.takeWhile_cons_of_neg (by simp [hrest a rfl]), List.append_nil]

/-- What is left after a run. -/
theorem dropWhile_run (hrun : ∀ a ∈ run, p a = true) (hrest : ∀ a ∈ rest.head?, p a = false) :
    (run ++ rest).dropWhile p = rest := by
  rw [List.dropWhile_append_of_pos hrun]
  cases rest with
  | nil => rfl
  | cons a as => exact List.dropWhile_cons_of_neg (by simp [hrest a rfl])

/-- There is only one way to split a text where a run ends. -/
theorem run_append_inj (hrun : ∀ a ∈ run, p a = true) (hrest : ∀ a ∈ rest.head?, p a = false)
    (hrun' : ∀ a ∈ run', p a = true) (hrest' : ∀ a ∈ rest'.head?, p a = false)
    (h : run ++ rest = run' ++ rest') : run = run' ∧ rest = rest' := by
  constructor
  · rw [← takeWhile_run hrun hrest, h, takeWhile_run hrun' hrest']
  · rw [← dropWhile_run hrun hrest, h, dropWhile_run hrun' hrest']

end TaintWeave.Text
