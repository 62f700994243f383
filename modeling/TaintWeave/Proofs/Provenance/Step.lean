import TaintWeave.Provenance.Reader

/-!
# Steps of reading

A step of reading keeps note of how far failures have got. What it reads does not depend on that, so
proofs look at its outcome alone: a step *yields* an outcome if it does so whatever has been noted,
and it *reads* something if it does so after some notes. There is a rule for each way to put steps
together: for what they yield, from the parts to the whole; for what they read, from the whole to
the parts.

* `Reading.Yields`: a step comes to an outcome.
* `Reading.Reads`: a step can come to something.
-/

namespace TaintWeave.Reading

variable {α β : Type}

/-- A step has an outcome, whatever has been noted: what it reads, or a failure. -/
def Yields (step : Step α) (outcome : Option α) : Prop := ∀ n, (step.run.run n).1 = outcome

/-- A step reads something, after some notes. -/
def Reads (step : Step α) (a : α) : Prop := ∃ n, (step.run.run n).1 = some a

/-! ## Runs -/

/-- The run of two steps of which the first reads something. -/
theorem run_bind_of_some {x : Step α} {f : α → Step β} {a : α} {n : Nat}
    (h : (x.run.run n).1 = some a) : (x >>= f).run.run n = (f a).run.run (x.run.run n).2 := by
  have hx : x.run.run n = (some a, (x.run.run n).2) := Prod.ext h rfl
  rw [OptionT.run_bind, Option.elimM, StateT.run_bind, hx]
  rfl

/-- The run of two steps of which the first fails. -/
theorem run_bind_of_none {x : Step α} {f : α → Step β} {n : Nat} (h : (x.run.run n).1 = none) :
    (x >>= f).run.run n = (none, (x.run.run n).2) := by
  have hx : x.run.run n = (none, (x.run.run n).2) := Prod.ext h rfl
  rw [OptionT.run_bind, Option.elimM, StateT.run_bind, hx]
  rfl

/-- The run of a choice of which the first part reads something. -/
theorem run_orElse_of_some {x y : Step α} {a : α} {n : Nat} (h : (x.run.run n).1 = some a) :
    (x <|> y).run.run n = (some a, (x.run.run n).2) := by
  have hx : x.run.run n = (some a, (x.run.run n).2) := Prod.ext h rfl
  rw [OptionT.run_orElse, Option.elimM, StateT.run_bind, hx]
  rfl

/-- The run of a choice of which the first part fails. -/
theorem run_orElse_of_none {x y : Step α} {n : Nat} (h : (x.run.run n).1 = none) :
    (x <|> y).run.run n = y.run.run (x.run.run n).2 := by
  have hx : x.run.run n = (none, (x.run.run n).2) := Prod.ext h rfl
  rw [OptionT.run_orElse, Option.elimM, StateT.run_bind, hx]
  rfl

/-! ## What steps yield -/

theorem yields_pure (a : α) : Yields (pure a) (some a) := fun _ => rfl

theorem yields_failure : Yields (failure : Step α) none := fun _ => rfl

/-- What never fails yields its result. -/
theorem yields_lift {x : StateM Nat α} {a : α} (h : ∀ n, (x.run n).1 = a) :
    Yields (liftM x) (some a) :=
  fun n => congrArg some (h n)

/-- After something is read, the next step decides. -/
theorem Yields.bind {x : Step α} {f : α → Step β} {a : α} {outcome : Option β}
    (hx : Yields x (some a)) (hf : Yields (f a) outcome) : Yields (x >>= f) outcome := by
  intro n
  rw [run_bind_of_some (hx n)]
  exact hf _

/-- After a failure, there is no next step. -/
theorem Yields.bind_none {x : Step α} (hx : Yields x none) (f : α → Step β) :
    Yields (x >>= f) none := by
  intro n
  rw [run_bind_of_none (hx n)]

/-- A choice is settled when its first part reads something. -/
theorem Yields.orElse {x : Step α} {a : α} (hx : Yields x (some a)) (y : Step α) :
    Yields (x <|> y) (some a) := by
  intro n
  rw [run_orElse_of_some (hx n)]

/-- When the first part of a choice fails, the second decides. -/
theorem Yields.orElse_none {x y : Step α} {outcome : Option α} (hx : Yields x none)
    (hy : Yields y outcome) : Yields (x <|> y) outcome := by
  intro n
  rw [run_orElse_of_none (hx n)]
  exact hy _

/-- A rule yields what its step does. -/
theorem Yields.rule {step : Step α} {outcome : Option α} (h : Yields step outcome)
    (cs : List Char) : Yields (rule cs step) outcome := by
  rcases outcome with _ | a
  · -- The failure is noted, and stays a failure.
    have hnote : Yields (liftM (note cs) : Step Unit) (some ()) := yields_lift fun _ => rfl
    exact h.orElse_none (hnote.bind yields_failure)
  · exact h.orElse _

/-! ## What steps read -/

theorem Yields.reads {step : Step α} {a : α} (h : Yields step (some a)) : Reads step a := ⟨0, h 0⟩

theorem Reads.of_pure {a b : α} (h : Reads (pure a) b) : b = a := by
  obtain ⟨n, hn⟩ := h
  exact (Option.some.inj hn).symm

theorem not_reads_failure (a : α) : ¬Reads failure a := fun ⟨_, hn⟩ => nomatch hn

/-- What never fails reads its result. -/
theorem Reads.of_lift {x : StateM Nat α} {a : α} (h : Reads (liftM x) a) :
    ∃ n, (x.run n).1 = a := by
  obtain ⟨n, hn⟩ := h
  exact ⟨n, Option.some.inj hn⟩

/-- Two steps have read something one after the other. -/
theorem Reads.of_bind {x : Step α} {f : α → Step β} {b : β} (h : Reads (x >>= f) b) :
    ∃ a, Reads x a ∧ Reads (f a) b := by
  obtain ⟨n, hn⟩ := h
  rcases hx : (x.run.run n).1 with _ | a
  · rw [run_bind_of_none hx] at hn
    cases hn
  · rw [run_bind_of_some hx] at hn
    exact ⟨a, ⟨n, hx⟩, ⟨_, hn⟩⟩

/-- One of the parts of a choice has read something. -/
theorem Reads.of_orElse {x y : Step α} {a : α} (h : Reads (x <|> y) a) : Reads x a ∨ Reads y a := by
  obtain ⟨n, hn⟩ := h
  rcases hx : (x.run.run n).1 with _ | b
  · rw [run_orElse_of_none hx] at hn
    exact .inr ⟨_, hn⟩
  · rw [run_orElse_of_some hx] at hn
    exact .inl ⟨n, hx.trans hn⟩

/-- A rule reads what its step does. -/
theorem Reads.of_rule {cs : List Char} {step : Step α} {a : α} (h : Reads (rule cs step) a) :
    Reads step a := by
  refine h.of_orElse.resolve_right fun hfailure => ?_
  obtain ⟨_, _, hfailure⟩ := hfailure.of_bind
  exact not_reads_failure a hfailure

/-! ## Given characters -/

/-- Given characters are read where they stand. -/
theorem yields_literal (s : String) (cs : List Char) :
    Yields (literal s (s.toList ++ cs)) (some cs) := by
  have hprefix : s.toList.isPrefixOf (s.toList ++ cs) = true :=
    List.isPrefixOf_iff_prefix.2 (List.prefix_append _ _)
  rw [literal, if_pos hprefix, ← String.length_toList, List.drop_left]
  exact yields_pure cs

/-- Given characters are not read where they do not stand. -/
theorem yields_literal_none {s : String} {cs : List Char} (h : ¬s.toList <+: cs) :
    Yields (literal s cs) none := by
  rw [literal, if_neg fun hprefix => h (List.isPrefixOf_iff_prefix.1 hprefix)]
  exact yields_failure

/-- Where given characters are read, they stand. -/
theorem Reads.eq_of_literal {s : String} {cs rest : List Char} (h : Reads (literal s cs) rest) :
    cs = s.toList ++ rest := by
  by_cases hprefix : s.toList <+: cs
  · obtain ⟨tail, rfl⟩ := hprefix
    obtain ⟨n, hn⟩ := h
    rw [yields_literal s tail n] at hn
    rw [Option.some.inj hn]
  · obtain ⟨n, hn⟩ := h
    rw [yields_literal_none hprefix n] at hn
    cases hn

end TaintWeave.Reading
