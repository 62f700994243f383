import Mathlib.Data.List.TakeWhile
import TaintWeave.Proofs.Provenance.Step

/-!
# Nested parentheses

The text of an operand without taint may hold anything, as long as its parentheses are nested. Such
a text ends at the first closing parenthesis that has no opening one in it; the reader finds this
end, and whatever it goes through on the way is nested.

* `Nested`: the texts with nested parentheses.
* `Reading.run_balanced_append`: a nested text is read up to its end.
* `Reading.exists_nested_balanced`: what is read is nested.
-/

namespace TaintWeave

open Reading

/-- A text in which every parenthesis has its counterpart. -/
inductive Nested : List Char → Prop
  | nil : Nested []
  | plain {c : Char} {rest : List Char} (hc : isPlain c = true) (hrest : Nested rest) :
      Nested (c :: rest)
  | group {inside rest : List Char} (hinside : Nested inside) (hrest : Nested rest) :
      Nested ('(' :: (inside ++ ')' :: rest))

/-- Characters other than parentheses can be put in front of a nested text. -/
theorem Nested.append {front rest : List Char} (hfront : ∀ c ∈ front, isPlain c = true)
    (hrest : Nested rest) : Nested (front ++ rest) := by
  induction front with
  | nil => exact hrest
  | cons c cs ih =>
    rw [List.forall_mem_cons] at hfront
    exact .plain hfront.1 (ih hfront.2)

namespace Reading

/-- A step after another goes on from what that has come to. -/
theorem run_bind_fst {α β : Type} (x : StateM Nat α) (f : α → StateM Nat β) (n : Nat) :
    (x >>= f).run n = (f (x.run n).1).run (x.run n).2 := rfl

/-- Nested texts are read up to the parenthesis that closes none of theirs. -/
theorem run_nestedTexts_append {text : List Char} (h : Nested text) (tail : List Char) {fuel : Nat}
    (hfuel : text.length ≤ fuel) (n : Nat) :
    ((nestedTexts fuel ((text ++ ')' :: tail).dropWhile isPlain)).run n).1 = ')' :: tail := by
  -- The tail changes as well: inside a group, it goes on with the parenthesis that closes this.
  induction h generalizing tail fuel n with
  | nil =>
    have hdrop : (')' :: tail).dropWhile isPlain = ')' :: tail := rfl
    rw [List.nil_append, hdrop]
    cases fuel <;> rfl
  | @plain c rest hc hrest ih =>
    rw [List.cons_append, List.dropWhile_cons_of_pos hc]
    exact ih tail (Nat.le_of_succ_le hfuel) n
  | @group inside rest hinside hrest ihInside ihRest =>
    have hlength : inside.length + rest.length + 2 ≤ fuel := by
      simp only [List.length_cons, List.length_append] at hfuel
      omega
    cases fuel with
    | zero => omega
    | succ fuel =>
      have hdrop : ('(' :: (inside ++ ')' :: rest) ++ ')' :: tail).dropWhile isPlain =
          '(' :: (inside ++ ')' :: (rest ++ ')' :: tail)) := by
        rw [List.cons_append, List.dropWhile_cons_of_neg (by decide), List.append_assoc,
          List.cons_append]
      rw [hdrop, nestedTexts, run_bind_fst, ihInside _ (by omega)]
      exact ihRest tail (by omega) _

/-- A text with the characters in front that are no parentheses is nested if the rest of it is. -/
theorem exists_nested_of_dropWhile {cs rest : List Char}
    (h : ∃ text, Nested text ∧ cs.dropWhile isPlain = text ++ rest) :
    ∃ text, Nested text ∧ cs = text ++ rest := by
  obtain ⟨text, htext, hdrop⟩ := h
  refine ⟨cs.takeWhile isPlain ++ text, htext.append fun c hc => List.mem_takeWhile_imp hc, ?_⟩
  rw [List.append_assoc, ← hdrop, List.takeWhile_append_dropWhile]

/-- Nothing is gone through where no parenthesis opens. -/
theorem run_nestedTexts_cons {fuel : Nat} {c : Char} (h : fuel = 0 ∨ c ≠ '(') (cs : List Char)
    (n : Nat) : ((nestedTexts fuel (c :: cs)).run n).1 = c :: cs := by
  rw [nestedTexts]
  · rfl
  · nofun
  · rintro k inner rfl hcons
    rcases h with h | h
    · cases h
    · exact h (List.cons.inj hcons).1

/-- What is gone through of nested texts is nested. -/
theorem exists_nested_nestedTexts (fuel : Nat) (cs : List Char) (n : Nat) :
    ∃ text, Nested text ∧ cs = text ++ ((nestedTexts fuel cs).run n).1 := by
  induction fuel generalizing cs n with
  | zero =>
    refine ⟨[], .nil, ?_⟩
    cases cs with
    | nil => rfl
    | cons c inner => rw [run_nestedTexts_cons (.inl rfl), List.nil_append]
  | succ fuel ih =>
    cases cs with
    | nil => exact ⟨[], .nil, rfl⟩
    | cons c inner =>
      by_cases hc : c = '('
      · subst hc
        obtain ⟨inside, hinside, hinner⟩ :=
          exists_nested_of_dropWhile (ih (inner.dropWhile isPlain) n)
        rw [nestedTexts, run_bind_fst]
        -- The group counts if it is closed; else nothing is gone through.
        split
        · rename_i tail hclosed
          obtain ⟨rest, hrest, htail⟩ := exists_nested_of_dropWhile (ih (tail.dropWhile isPlain)
            ((nestedTexts fuel (inner.dropWhile isPlain)).run n).2)
          refine ⟨'(' :: (inside ++ ')' :: rest), .group hinside hrest, ?_⟩
          rw [hclosed] at hinner
          generalize ((nestedTexts fuel (tail.dropWhile isPlain)).run _).1 = end' at htail ⊢
          rw [hinner, htail, List.cons_append, List.append_assoc, List.cons_append]
        · exact ⟨[], .nil, rfl⟩
      · refine ⟨[], .nil, ?_⟩
        rw [run_nestedTexts_cons (.inr hc), List.nil_append]

/-- A nested text is read up to the parenthesis that closes none of its own. -/
theorem run_balanced_append {text : List Char} (h : Nested text) (tail : List Char) (n : Nat) :
    ((balanced (text ++ ')' :: tail)).run n).1 = ')' :: tail :=
  run_nestedTexts_append h tail (by simp) n

/-- What is read as a text with nested parentheses is one. -/
theorem exists_nested_balanced (cs : List Char) (n : Nat) :
    ∃ text, Nested text ∧ cs = text ++ ((balanced cs).run n).1 :=
  exists_nested_of_dropWhile (exists_nested_nestedTexts cs.length (cs.dropWhile isPlain) n)

end Reading

end TaintWeave
