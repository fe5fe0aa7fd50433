import Mathlib

/-!
# Arithmetic that panics

Unsigned arithmetic of a program built with overflow checks: a result that does not fit its type is
a panic. Values are natural numbers, an operation is an `Option`, and `none` is the panic.

A loop in this arithmetic agrees with the same loop over the natural numbers as long as the counters
that the latter ends with fit their types, because counters only grow. `foldl_checked` is that
argument, once for all loops.
-/

namespace Xprobe.Foundation

/-! ## Operations -/

/-- A result that has to fit in a number of bits. -/
def fitting (width n : Nat) : Option Nat := if n < 2 ^ width then some n else none

theorem fitting_of_lt {width n : Nat} (h : n < 2 ^ width) : fitting width n = some n := if_pos h

/-- `a + b` in `u64` or `usize`. -/
def addU64 (a b : Nat) : Option Nat := fitting 64 (a + b)

@[simp] theorem addU64_of_lt {a b : Nat} (h : a + b < 2 ^ 64) : addU64 a b = some (a + b) :=
  fitting_of_lt h

/-- `a * b` in `usize`. -/
def mulU64 (a b : Nat) : Option Nat := fitting 64 (a * b)

@[simp] theorem mulU64_of_lt {a b : Nat} (h : a * b < 2 ^ 64) : mulU64 a b = some (a * b) :=
  fitting_of_lt h

/-- `a - b` in `u64` or `usize`. -/
def subU64 (a b : Nat) : Option Nat := if b ≤ a then some (a - b) else none

@[simp] theorem subU64_of_le {a b : Nat} (h : b ≤ a) : subU64 a b = some (a - b) := if_pos h

/-- `iter().sum()` in a type of a number of bits. -/
def sumFitting (width : Nat) (values : List Nat) : Option Nat :=
  values.foldlM (fun sum value => fitting width (sum + value)) 0

/-! ## Loops -/

variable {α σ : Type*}

/-- A loop whose body checks runs as the loop without checks when the final state passes: a body
    that leads to a passing state has passed its checks and started in a passing state. -/
theorem foldlM_checked {f g : σ → α → Option σ} {P : σ → Prop}
    (hstep : ∀ s a s', f s a = some s' → P s' → g s a = some s' ∧ P s) (l : List α) (s s' : σ)
    (hrun : l.foldlM f s = some s') (h : P s') : l.foldlM g s = some s' ∧ P s := by
  induction l generalizing s with
  | nil =>
    cases hrun
    exact ⟨rfl, h⟩
  | cons a rest ih =>
    rw [List.foldlM_cons] at hrun ⊢
    obtain ⟨next, hnext, hrun⟩ := Option.bind_eq_some_iff.mp hrun
    obtain ⟨hrest, hpass⟩ := ih next hrun
    obtain ⟨hchecked, hfirst⟩ := hstep s a next hnext hpass
    rw [hchecked]
    exact ⟨hrest, hfirst⟩

/-- The same for a loop that cannot panic without the checks. -/
theorem foldl_checked {f : σ → α → σ} {g : σ → α → Option σ} {P : σ → Prop}
    (hstep : ∀ s a, P (f s a) → g s a = some (f s a) ∧ P s) (l : List α) (s : σ)
    (h : P (l.foldl f s)) : l.foldlM g s = some (l.foldl f s) ∧ P s := by
  induction l generalizing s with
  | nil => exact ⟨rfl, h⟩
  | cons a rest ih =>
    obtain ⟨hrest, hpass⟩ := ih (f s a) h
    obtain ⟨hchecked, hfirst⟩ := hstep s a hpass
    rw [List.foldlM_cons, hchecked]
    exact ⟨hrest, hfirst⟩

/-- A loop over another state type simulates a loop, when every body that leads to a passing state is
    simulated. -/
theorem foldlM_simulates {τ : Type*} {f : σ → α → Option σ} {g : τ → α → Option τ} {P : σ → Prop}
    {R : τ → σ → Prop} (hback : ∀ s a s', f s a = some s' → P s' → P s)
    (hstep : ∀ t s a s', R t s → f s a = some s' → P s' → ∃ t', g t a = some t' ∧ R t' s')
    (l : List α) (t : τ) (s s' : σ) (hR : R t s) (hrun : l.foldlM f s = some s') (h : P s') :
    ∃ t', l.foldlM g t = some t' ∧ R t' s' := by
  induction l generalizing t s with
  | nil =>
    cases hrun
    exact ⟨t, rfl, hR⟩
  | cons a rest ih =>
    rw [List.foldlM_cons] at hrun
    obtain ⟨next, hnext, hrun⟩ := Option.bind_eq_some_iff.mp hrun
    have hpass : P next := (foldlM_checked
      (fun s a s' hs hs' => ⟨hs, hback s a s' hs hs'⟩) rest next s' hrun h).2
    obtain ⟨t', ht', hR'⟩ := hstep t s a next hR hnext hpass
    rw [List.foldlM_cons, ht']
    exact ih t' next hR' hrun

/-- A sum that fits does not overflow on the way. -/
theorem sumFitting_of_lt {width : Nat} {values : List Nat} (h : values.sum < 2 ^ width) :
    sumFitting width values = some values.sum := by
  rw [List.sum_eq_foldl] at h ⊢
  refine (foldl_checked (P := (· < 2 ^ width)) ?_ values 0 h).1
  intro sum value hfits
  exact ⟨fitting_of_lt hfits, by omega⟩

end Xprobe.Foundation
