import Mathlib

/-!
# Loop rules

A `for` loop over a list is a fold of its body. The rules below reduce a fact about the whole loop
to one about the body, where the invariant may mention the elements already consumed and the body
is entered only at a position that really occurs in the list. The consumed elements are listed last
first.
-/

namespace Xprobe.Foundation

variable {α σ : Type*}

/-! ## Loops that always finish -/

variable {l : List α} {step : σ → α → σ} {I : List α → List α → σ → Prop}

private theorem foldl_zipper_invariant_from
    (hstep : ∀ done a todo s, l = done.reverse ++ a :: todo → I done (a :: todo) s →
      I (a :: done) todo (step s a)) (todo done : List α) (s : σ) (hl : l = done.reverse ++ todo)
    (h : I done todo s) :
    I l.reverse [] (todo.foldl step s) := by
  induction todo generalizing done s with
  | nil =>
    have hdone : l.reverse = done := by simp [hl]
    rw [hdone]
    exact h
  | cons a todo ih => exact ih (a :: done) (step s a) (by simp [hl]) (hstep done a todo s hl h)

/-- An invariant over the consumed elements and those still to come, kept by every pass through
    the body, holds after the loop. -/
theorem foldl_zipper_invariant {s₀ : σ} (hinit : I [] l s₀)
    (hstep : ∀ done a todo s, l = done.reverse ++ a :: todo → I done (a :: todo) s →
      I (a :: done) todo (step s a)) :
    I l.reverse [] (l.foldl step s₀) :=
  foldl_zipper_invariant_from hstep l [] s₀ rfl hinit

/-- The same rule for an invariant that mentions the consumed elements only. -/
theorem foldl_invariant {I : List α → σ → Prop} {s₀ : σ} (hinit : I [] s₀)
    (hstep : ∀ done a todo s, l = done.reverse ++ a :: todo → I done s → I (a :: done) (step s a)) :
    I l.reverse (l.foldl step s₀) :=
  foldl_zipper_invariant (I := fun done _ s => I done s) hinit hstep

/-! ## Loops whose body can panic -/

private theorem foldlM_zipper_invariant_from {step : σ → α → Option σ}
    (hstep : ∀ done a todo s, l = done.reverse ++ a :: todo → I done (a :: todo) s →
      ∃ s', step s a = some s' ∧ I (a :: done) todo s') (todo done : List α) (s : σ)
    (hl : l = done.reverse ++ todo) (h : I done todo s) :
    ∃ s', todo.foldlM step s = some s' ∧ I l.reverse [] s' := by
  induction todo generalizing done s with
  | nil =>
    have hdone : l.reverse = done := by simp [hl]
    rw [hdone]
    exact ⟨s, rfl, h⟩
  | cons a todo ih =>
    obtain ⟨s', hs', h'⟩ := hstep done a todo s hl h
    rw [List.foldlM_cons, hs']
    exact ih (a :: done) s' (by simp [hl]) h'

/-- If no pass through the body panics and every one keeps the invariant, the loop finishes and
    the invariant holds after it. -/
theorem foldlM_zipper_invariant {step : σ → α → Option σ} {s₀ : σ} (hinit : I [] l s₀)
    (hstep : ∀ done a todo s, l = done.reverse ++ a :: todo → I done (a :: todo) s →
      ∃ s', step s a = some s' ∧ I (a :: done) todo s') :
    ∃ s', l.foldlM step s₀ = some s' ∧ I l.reverse [] s' :=
  foldlM_zipper_invariant_from hstep l [] s₀ rfl hinit

/-- The same rule for an invariant that mentions the consumed elements only. -/
theorem foldlM_invariant {step : σ → α → Option σ} {I : List α → σ → Prop} {s₀ : σ}
    (hinit : I [] s₀) (hstep : ∀ done a todo s, l = done.reverse ++ a :: todo → I done s →
      ∃ s', step s a = some s' ∧ I (a :: done) s') :
    ∃ s', l.foldlM step s₀ = some s' ∧ I l.reverse s' :=
  foldlM_zipper_invariant (I := fun done _ s => I done s) hinit hstep

/-! ## Loops over mapped lists -/

section

variable {β τ : Type*}

/-- A loop over a mapped list is the image of a loop, when the body commutes with the maps. -/
theorem foldl_map_hom {step' : τ → β → τ} {f : α → β} {g : σ → τ}
    (h : ∀ s a, step' (g s) (f a) = g (step s a)) (l : List α) (s : σ) :
    (l.map f).foldl step' (g s) = g (l.foldl step s) := by
  induction l generalizing s with
  | nil => rfl
  | cons a rest ih => rw [List.map_cons, List.foldl_cons, h, ih, List.foldl_cons]

/-- The same for a body that can panic. -/
theorem foldlM_map_hom {step : σ → α → Option σ} {step' : τ → β → Option τ} {f : α → β}
    {g : σ → τ} (h : ∀ s a, step' (g s) (f a) = (step s a).map g) (l : List α) (s : σ) :
    (l.map f).foldlM step' (g s) = (l.foldlM step s).map g := by
  induction l generalizing s with
  | nil => rfl
  | cons a rest ih =>
    rw [List.map_cons, List.foldlM_cons, List.foldlM_cons, h]
    cases step s a with
    | none => rfl
    | some next => exact ih next

end

end Xprobe.Foundation
