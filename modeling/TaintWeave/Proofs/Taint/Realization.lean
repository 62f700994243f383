import TaintWeave.Proofs.Outcome
import TaintWeave.Taint.Run

/-!
# Realization

Instrumented code threads a state through what plain code computes without one. A computation of
instrumented code *realizes* a plain computation if from every state it comes to a related value, or
to the same fault.

* `Run.Realizes`: the relation.
* `Run.Realizes.bind`: realizations are put together step by step.
-/

namespace TaintWeave

variable {α β γ δ : Type}

/-- Outcomes agree if they are the same fault or related values. -/
inductive Agrees (R : α → β → Prop) : Except Fault α → Except Fault β → Prop
  | value {a : α} {b : β} (h : R a b) : Agrees R (.ok a) (.ok b)
  | fault (f : Fault) : Agrees R (.error f) (.error f)

namespace Run

/-- A computation comes to an outcome that agrees with a plain one, from every state. -/
def Realizes (R : α → β → Prop) (x : Run α) (y : Except Fault β) : Prop :=
  ∀ s, ∃ outcome s', x.run.run s = (outcome, s') ∧ Agrees R outcome y

variable {R : α → β → Prop} {S : γ → δ → Prop}

/-- A value realizes a related one. -/
theorem realizes_pure {a : α} {b : β} (h : R a b) : Realizes R (pure a) (.ok b) :=
  fun s => ⟨.ok a, s, rfl, .value h⟩

/-- After a step that comes to a value, the next one starts where it has come to. -/
theorem run_bind_of_ok {x : Run α} {f : α → Run γ} {s s' : RunState} {a : α}
    (h : x.run.run s = (.ok a, s')) : (x >>= f).run.run s = (f a).run.run s' := by
  rw [ExceptT.run_bind, StateT.run_bind, h]
  rfl

/-- After a step that comes to a fault, there is no next one. -/
theorem run_bind_of_error {x : Run α} {f : α → Run γ} {s s' : RunState} {fault : Fault}
    (h : x.run.run s = (.error fault, s')) : (x >>= f).run.run s = (.error fault, s') := by
  rw [ExceptT.run_bind, StateT.run_bind, h]
  rfl

/-- Two steps that come to a value do so one after the other. -/
theorem bind_eq_ok {x : Run α} {f : α → Run γ} {s s' : RunState} {c : γ}
    (h : (x >>= f).run.run s = (.ok c, s')) :
    ∃ a s₁, x.run.run s = (.ok a, s₁) ∧ (f a).run.run s₁ = (.ok c, s') := by
  rcases hx : x.run.run s with ⟨fault | a, s₁⟩
  · rw [run_bind_of_error hx] at h
    cases h
  · rw [run_bind_of_ok hx] at h
    exact ⟨a, s₁, rfl, h⟩

/-- A plain step that comes to a value leaves the state. -/
theorem lift_eq_ok {x : Except Fault α} {s s' : RunState} {a : α}
    (h : (liftM x : Run α).run.run s = (.ok a, s')) : x = .ok a ∧ s' = s := by
  rcases x with fault | b
  · cases h
  · cases h
    exact ⟨rfl, rfl⟩

/-- Two steps realize two steps, if each realizes the one in its place. -/
theorem Realizes.bind {x : Run α} {y : Except Fault β} {f : α → Run γ} {g : β → Except Fault δ}
    (hx : Realizes R x y) (hf : ∀ a b, R a b → Realizes S (f a) (g b)) :
    Realizes S (x >>= f) (y >>= g) := by
  intro s
  obtain ⟨outcome, s₁, hrun, hagrees⟩ := hx s
  cases hagrees with
  | fault fault => exact ⟨.error fault, s₁, run_bind_of_error hrun, .fault fault⟩
  | @value a b h =>
    -- The second step starts in the state that the first has left.
    obtain ⟨outcome, s₂, hrest, hagrees⟩ := hf a b h s₁
    exact ⟨outcome, s₂, (run_bind_of_ok hrun).trans hrest, hagrees⟩

end Run

end TaintWeave
