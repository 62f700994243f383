import Mathlib.Data.List.Forall2

/-!
# Outcomes

Computations that may stop with an error, as far as proofs look into them: one that gives a result
has gone through all its steps.

* `toOption_eq_some_iff`: a result, whatever the errors are.
* `bind_eq_ok`, `map_eq_ok`, `mapError_eq_ok`: two steps one after the other, of which one may only
  change the form.
* `bind_eq_error`, `map_eq_error`, `mapError_eq_error`: two steps of which one stops with an error;
  `both_eq_error` if none of them waits for the other.
* `foldlM_ok_induction`: steps over a list. What holds at the start and is kept by every step holds
  at the end.
* `exists_of_foldlM_eq_error`: steps over a list of which one stops with an error.
* `forM_eq_ok_iff`, `forM_eq_error_iff`: steps over a list that only check something.
* `mapM_eq_ok_iff`, `mapM_of_mapM`: steps over a list that do not depend on one another, and such
  steps over their results.
* `error?`: the error that stops a computation. Of independent steps over a list, the first that
  stops counts (`error?_mapM`).
* `FailsWith`: a computation that stops with no other errors than some, and so do computations that
  are put together of such.
-/

namespace TaintWeave

variable {ε α β : Type}

/-- A computation gives a result if it does with its error forgotten. -/
theorem toOption_eq_some_iff {x : Except ε α} {a : α} : x.toOption = some a ↔ x = .ok a := by
  rcases x with e | b
  · exact ⟨nofun, nofun⟩
  · exact ⟨fun h => congrArg _ (Option.some.inj h), fun h => congrArg _ (Except.ok.inj h)⟩

/-- Two steps give a result if the first does, and the second from there. -/
theorem bind_eq_ok {x : Except ε α} {f : α → Except ε β} {b : β} :
    x >>= f = .ok b ↔ ∃ a, x = .ok a ∧ f a = .ok b := by
  rcases x with e | a
  · exact ⟨nofun, fun ⟨_, h, _⟩ => nomatch h⟩
  · constructor
    · intro h
      exact ⟨a, rfl, h⟩
    · rintro ⟨_, ⟨⟩, hb⟩
      exact hb

/-- A result may be put into a form once it is there. -/
theorem map_eq_ok {x : Except ε α} {f : α → β} {b : β} :
    x.map f = .ok b ↔ ∃ a, x = .ok a ∧ f a = b := by
  rcases x with e | a
  · exact ⟨nofun, fun ⟨_, h, _⟩ => nomatch h⟩
  · constructor
    · intro h
      exact ⟨a, rfl, Except.ok.inj h⟩
    · rintro ⟨_, ⟨⟩, rfl⟩
      rfl

/-- Errors may be told in other terms; a result stays what it is. -/
theorem mapError_eq_ok {δ : Type} {x : Except ε α} {f : ε → δ} {a : α} :
    x.mapError f = .ok a ↔ x = .ok a := by
  rcases x with e | b
  · exact ⟨nofun, nofun⟩
  · exact ⟨fun h => congrArg _ (Except.ok.inj h), fun h => congrArg _ (Except.ok.inj h)⟩

/-- A result is no error. -/
theorem ok_ne_error {a : α} {e : ε} : (.ok a : Except ε α) ≠ .error e := nofun

/-- Two steps stop with an error if the first does, or the second from where the first has come
    to. -/
theorem bind_eq_error {x : Except ε α} {f : α → Except ε β} {e : ε} :
    x >>= f = .error e ↔ x = .error e ∨ ∃ a, x = .ok a ∧ f a = .error e := by
  rcases x with e' | a
  · constructor
    · intro h
      exact .inl (congrArg _ (Except.error.inj h))
    · rintro (⟨⟨⟩⟩ | ⟨_, ⟨⟩, _⟩)
      rfl
  · constructor
    · intro h
      exact .inr ⟨a, rfl, h⟩
    · rintro (⟨⟨⟩⟩ | ⟨_, ⟨⟩, he⟩)
      exact he

/-- What form a result is put into does not matter for errors. -/
theorem map_eq_error {x : Except ε α} {f : α → β} {e : ε} : x.map f = .error e ↔ x = .error e := by
  rcases x with e' | a
  · exact ⟨fun h => congrArg _ (Except.error.inj h), fun h => congrArg _ (Except.error.inj h)⟩
  · exact ⟨nofun, nofun⟩

/-- Two steps of which none waits for the other stop with the error of one of them, if both stop
    with the same. -/
theorem both_eq_error {γ : Type} {x : Except ε α} {y : Except ε β} {g : α → β → γ} {e : ε}
    (hsame : ∀ e', x = .error e' → y = .error e → e' = e) :
    (do let a ← x; let b ← y; return g a b) = .error e ↔ x = .error e ∨ y = .error e := by
  rw [bind_eq_error]
  constructor
  · rintro (hx | ⟨a, -, h⟩)
    · exact .inl hx
    · rcases bind_eq_error.1 h with hy | ⟨b, -, ⟨⟩⟩
      exact .inr hy
  · rintro (hx | hy)
    · exact .inl hx
    · rcases x with e' | a
      · exact .inl (congrArg _ (hsame e' rfl hy))
      · exact .inr ⟨a, rfl, bind_eq_error.2 (.inl hy)⟩

/-- An error told in other terms is one that was there before. -/
theorem mapError_eq_error {δ : Type} {x : Except ε α} {f : ε → δ} {e : δ} :
    x.mapError f = .error e ↔ ∃ e', x = .error e' ∧ f e' = e := by
  rcases x with e' | a
  · constructor
    · intro h
      exact ⟨e', rfl, Except.error.inj h⟩
    · rintro ⟨_, ⟨⟩, rfl⟩
      rfl
  · exact ⟨nofun, fun ⟨_, h, _⟩ => nomatch h⟩

/-- Steps over a list depend on its elements alone. -/
theorem foldlM_congr {f g : β → α → Except ε β} {l : List α} (h : ∀ a ∈ l, ∀ b, f b a = g b a)
    (b : β) : l.foldlM f b = l.foldlM g b := by
  induction l generalizing b with
  | nil => rfl
  | cons a rest ih =>
    rw [List.forall_mem_cons] at h
    rw [List.foldlM_cons, List.foldlM_cons, h.1]
    exact congrArg _ (funext fun b => ih h.2 b)

/-- Steps over a list that stop with an error do so in one of them. -/
theorem exists_of_foldlM_eq_error {f : β → α → Except ε β} {l : List α} {b : β} {e : ε}
    (h : l.foldlM f b = .error e) : ∃ b', ∃ a ∈ l, f b' a = .error e := by
  induction l generalizing b with
  | nil => cases h
  | cons a rest ih =>
    rw [List.foldlM_cons, bind_eq_error] at h
    rcases h with h | ⟨b', -, h⟩
    · exact ⟨b, a, List.mem_cons_self, h⟩
    · obtain ⟨b'', a', ha', hstep⟩ := ih h
      exact ⟨b'', a', List.mem_cons_of_mem _ ha', hstep⟩

/-- What holds before the first step over a list, and is kept by every step, holds after the
    last. It may speak about the part of the list that the steps have gone through. -/
theorem foldlM_ok_induction {P : List α → β → Prop} {f : β → α → Except ε β} {l : List α} {b b' : β}
    (hrun : l.foldlM f b = .ok b') (start : P [] b)
    (step : ∀ done b a b', P done b → f b a = .ok b' → P (done ++ [a]) b') : P l b' := by
  -- The part gone through grows with every step, so the rest is taken after any part.
  suffices h : ∀ (rest done : List α) (b : β), P done b → rest.foldlM f b = .ok b' →
      P (done ++ rest) b' from h l [] b start hrun
  intro rest
  induction rest with
  | nil =>
    intro done b hb hrun
    cases hrun
    rw [List.append_nil]
    exact hb
  | cons a rest ih =>
    intro done b hb hrun
    rw [List.foldlM_cons, bind_eq_ok] at hrun
    obtain ⟨b₁, hstep, hrest⟩ := hrun
    have := ih (done ++ [a]) b₁ (step done b a b₁ hb hstep) hrest
    rwa [List.append_assoc, List.singleton_append] at this

/-- Steps over a list without results come to its end if each of them does. -/
theorem forM_eq_ok_iff {f : α → Except ε Unit} {l : List α} :
    l.forM f = .ok () ↔ ∀ a ∈ l, f a = .ok () := by
  induction l with
  | nil => exact ⟨fun _ => List.forall_mem_nil _, fun _ => rfl⟩
  | cons a rest ih =>
    have hstep : (a :: rest).forM f = (f a >>= fun _ => rest.forM f) := rfl
    rw [hstep, bind_eq_ok, List.forall_mem_cons, ← ih]
    constructor
    · rintro ⟨_, ha, hrest⟩
      exact ⟨ha, hrest⟩
    · rintro ⟨ha, hrest⟩
      exact ⟨(), ha, hrest⟩

/-- Steps over a list without results stop with the error of the first that does. -/
theorem forM_eq_error_iff {f : α → Except ε Unit} {l : List α} {e : ε} :
    l.forM f = .error e ↔ ∃ before a after, l = before ++ a :: after ∧
      (∀ b ∈ before, f b = .ok ()) ∧ f a = .error e := by
  induction l with
  | nil =>
    constructor
    · rintro ⟨⟩
    · rintro ⟨before, a, after, hl, -, -⟩
      exact absurd hl.symm (by simp)
  | cons a rest ih =>
    have hstep : (a :: rest).forM f = (f a >>= fun _ => rest.forM f) := rfl
    rw [hstep, bind_eq_error, ih]
    constructor
    · rintro (ha | ⟨_, ha, before, b, after, rfl, hbefore, hb⟩)
      · exact ⟨[], a, rest, rfl, List.forall_mem_nil _, ha⟩
      · exact ⟨a :: before, b, after, rfl, List.forall_mem_cons.2 ⟨ha, hbefore⟩, hb⟩
    · rintro ⟨_ | ⟨b, before⟩, c, after, hl, hbefore, hc⟩
      · cases hl
        exact .inl hc
      · cases hl
        rw [List.forall_mem_cons] at hbefore
        exact .inr ⟨(), hbefore.1, before, c, after, rfl, hbefore.2, hc⟩

/-- Independent steps give the list of their results, if all give one. -/
theorem mapM_eq_ok_iff {f : α → Except ε β} {l : List α} {results : List β} :
    l.mapM f = .ok results ↔ List.Forall₂ (fun a b => f a = .ok b) l results := by
  induction l generalizing results with
  | nil => simp [pure, Except.pure, List.forall₂_nil_left_iff, eq_comm]
  | cons a rest ih =>
    simp only [List.mapM_cons, bind_eq_ok, List.forall₂_cons_left_iff, ih]
    constructor
    · rintro ⟨b, hb, bs, hbs, ⟨⟩⟩
      exact ⟨b, bs, hb, hbs, rfl⟩
    · rintro ⟨b, bs, hb, hbs, rfl⟩
      exact ⟨b, hb, bs, hbs, rfl⟩

/-- Independent steps give results if each of them does. -/
theorem exists_mapM_eq_ok_iff {f : α → Except ε β} {l : List α} :
    (∃ results, l.mapM f = .ok results) ↔ ∀ a ∈ l, ∃ b, f a = .ok b := by
  simp only [mapM_eq_ok_iff]
  induction l with
  | nil => simp
  | cons a rest ih =>
    rw [List.forall_mem_cons, ← ih]
    constructor
    · rintro ⟨_, _ | ⟨hb, hbs⟩⟩
      exact ⟨⟨_, hb⟩, _, hbs⟩
    · rintro ⟨⟨b, hb⟩, bs, hbs⟩
      exact ⟨b :: bs, .cons hb hbs⟩

/-- A result of independent steps is that of one of them. -/
theorem exists_of_mem_mapM {f : α → Except ε β} {l : List α} {results : List β} {b : β}
    (h : l.mapM f = .ok results) (hb : b ∈ results) : ∃ a ∈ l, f a = .ok b := by
  rw [mapM_eq_ok_iff] at h
  induction h with
  | nil => exact absurd hb List.not_mem_nil
  | @cons a _ rest _ ha _ ih =>
    rcases List.mem_cons.1 hb with rfl | hb
    · exact ⟨a, List.mem_cons_self, ha⟩
    · obtain ⟨a', ha', hfirst⟩ := ih hb
      exact ⟨a', List.mem_cons_of_mem _ ha', hfirst⟩

/-- Steps over the results of steps: what the second makes of the result of the first for each
    element, both make of the list. -/
theorem mapM_of_mapM {δ γ : Type} {f : α → Except ε β} {g : β → Except δ γ} {h : α → γ}
    {l : List α} {results : List β} (hfirst : l.mapM f = .ok results)
    (hsecond : ∀ a ∈ l, ∀ b, f a = .ok b → g b = .ok (h a)) : results.mapM g = .ok (l.map h) := by
  rw [mapM_eq_ok_iff] at hfirst ⊢
  induction hfirst with
  | nil => exact .nil
  | cons hb _ ih =>
    rw [List.forall_mem_cons] at hsecond
    exact .cons (hsecond.1 _ hb) (ih hsecond.2)

/-- Steps that all give a result give the list of the results. -/
theorem mapM_eq_ok {f : α → Except ε β} {g : α → Option β} {l : List α}
    (h : ∀ a ∈ l, ∃ b, f a = .ok b ∧ g a = some b) : l.mapM f = .ok (l.filterMap g) := by
  rw [mapM_eq_ok_iff]
  induction l with
  | nil => exact .nil
  | cons a rest ih =>
    rw [List.forall_mem_cons] at h
    obtain ⟨⟨b, hf, hg⟩, hrest⟩ := h
    rw [List.filterMap_cons_some hg]
    exact .cons hf (ih hrest)

/-- Independent steps that come to the same for each element come to the same lists. -/
theorem exists_mapM_eq_ok_both {δ : Type} {f : α → Except ε β} {g : α → Except δ β} {l : List α}
    (h : ∀ a ∈ l, ∃ b, f a = .ok b ∧ g a = .ok b) :
    ∃ results, l.mapM f = .ok results ∧ l.mapM g = .ok results := by
  simp only [mapM_eq_ok_iff]
  induction l with
  | nil => exact ⟨[], .nil, .nil⟩
  | cons a rest ih =>
    rw [List.forall_mem_cons] at h
    obtain ⟨⟨b, hf, hg⟩, hrest⟩ := h
    obtain ⟨results, hfs, hgs⟩ := ih hrest
    exact ⟨b :: results, .cons hf hfs, .cons hg hgs⟩

/-! ## Errors -/

/-- The error that stops a computation, if one does. -/
def error? : Except ε α → Option ε
  | .error e => some e
  | .ok _ => none

/-- No error stops a computation that gives a result. -/
theorem error?_eq_none_iff {x : Except ε α} : error? x = none ↔ ∃ a, x = .ok a := by
  rcases x with e | a
  · exact ⟨nofun, fun ⟨_, h⟩ => nomatch h⟩
  · exact ⟨fun _ => ⟨a, rfl⟩, fun _ => rfl⟩

/-- What form a result is put into does not matter for errors. -/
@[simp] theorem error?_map (x : Except ε α) (f : α → β) : error? (x.map f) = error? x := by
  rcases x with e | a
  · rfl
  · rfl

/-- What is found first in lists one after the other is found first in one of them. -/
theorem findSome?_flatMap {γ : Type} (f : α → List β) (g : β → Option γ) (l : List α) :
    (l.flatMap f).findSome? g = l.findSome? fun a => (f a).findSome? g := by
  induction l with
  | nil => rfl
  | cons a rest ih =>
    rw [List.flatMap_cons, List.findSome?_append, List.findSome?_cons, ih]
    rcases (f a).findSome? g with _ | b
    · rfl
    · rfl

/-- What is found first depends on the elements alone. -/
theorem findSome?_congr {γ : Type} {f g : α → Option γ} {l : List α} (h : ∀ a ∈ l, f a = g a) :
    l.findSome? f = l.findSome? g := by
  induction l with
  | nil => rfl
  | cons a rest ih =>
    rw [List.forall_mem_cons] at h
    rw [List.findSome?_cons, List.findSome?_cons, h.1, ih h.2]

/-- What is found first stays when elements are left out in which nothing is found. -/
theorem findSome?_filter {γ : Type} {f : α → Option γ} {p : α → Bool} {l : List α}
    (h : ∀ a ∈ l, p a = false → f a = none) : (l.filter p).findSome? f = l.findSome? f := by
  induction l with
  | nil => rfl
  | cons a rest ih =>
    rw [List.forall_mem_cons] at h
    by_cases hp : p a = true
    · rw [List.filter_cons_of_pos hp, List.findSome?_cons, List.findSome?_cons, ih h.2]
    · rw [List.filter_cons_of_neg hp, List.findSome?_cons, h.1 (Bool.eq_false_iff.2 hp), ih h.2]

/-- Of independent steps over a list, the first that stops counts. -/
theorem error?_mapM (f : α → Except ε β) (l : List α) :
    error? (l.mapM f) = l.findSome? fun a => error? (f a) := by
  induction l with
  | nil => rfl
  | cons a rest ih =>
    rw [List.mapM_cons, List.findSome?_cons, ← ih]
    rcases f a with e | b
    · rfl
    · rcases rest.mapM f with e | bs
      · rfl
      · rfl

/-! ## Possible errors -/

/-- A computation stops with no other errors than some. -/
def FailsWith (P : ε → Prop) (x : Except ε α) : Prop := ∀ e, x = .error e → P e

variable {P : ε → Prop}

theorem FailsWith.ok (a : α) : FailsWith P (.ok a : Except ε α) := nofun

theorem FailsWith.error {e : ε} (h : P e) : FailsWith P (.error e : Except ε α) := by
  rintro _ ⟨⟩
  exact h

/-- Two steps stop with the errors of both. -/
theorem FailsWith.bind {x : Except ε α} {f : α → Except ε β} (hx : FailsWith P x)
    (hf : ∀ a, FailsWith P (f a)) : FailsWith P (x >>= f) := by
  intro e he
  rcases bind_eq_error.1 he with he | ⟨a, -, he⟩
  · exact hx e he
  · exact hf a e he

/-- What form a result is put into does not matter for errors. -/
theorem FailsWith.map {x : Except ε α} (hx : FailsWith P x) (f : α → β) :
    FailsWith P (x.map f) :=
  hx.bind fun a => .ok (f a)

/-- Independent steps over a list stop with the errors of all. -/
theorem FailsWith.mapM {f : α → Except ε β} {l : List α} (h : ∀ a ∈ l, FailsWith P (f a)) :
    FailsWith P (l.mapM f) := by
  induction l with
  | nil => exact .ok []
  | cons a rest ih =>
    rw [List.forall_mem_cons] at h
    rw [List.mapM_cons]
    exact h.1.bind fun b => (ih h.2).bind fun bs => .ok (b :: bs)

end TaintWeave
