import Mathlib

/-!
# Fallible code

Inversion of a sequence of fallible steps: if the whole sequence succeeded, each step did.
-/

namespace Xprobe.Foundation

variable {ε α β : Type}

variable {x : Except ε α} {f : α → Except ε β}

/-- A sequence that succeeded, at its first step. -/
theorem of_bind {b : β} (h : (x >>= f) = .ok b) : ∃ a, x = .ok a ∧ f a = .ok b := by
  cases x with
  | error e => cases h
  | ok a => exact ⟨a, rfl, h⟩

theorem bind_eq_ok_iff {b : β} : (x >>= f) = .ok b ↔ ∃ a, x = .ok a ∧ f a = .ok b := by
  refine ⟨of_bind, ?_⟩
  rintro ⟨a, rfl, h⟩
  exact h

/-- A sequence fails in its first step or after it. -/
theorem bind_eq_error_iff {e : ε} :
    (x >>= f) = .error e ↔ x = .error e ∨ ∃ a, x = .ok a ∧ f a = .error e := by
  cases x with
  | error e' => simp [bind, Except.bind]
  | ok a => simp [bind, Except.bind]

@[simp] theorem ok_bind (a : α) (f : α → Except ε β) : (Except.ok a >>= f) = f a := rfl

@[simp] theorem some_bind (a : α) (f : α → Option β) : (some a >>= f) = f a := rfl

/-- A check that gives no value. -/
theorem bind_unit_eq_ok_iff {x : Except ε Unit} {f : Unit → Except ε β} {b : β} :
    (x >>= f) = .ok b ↔ x = .ok () ∧ f () = .ok b := by
  rw [bind_eq_ok_iff]
  constructor
  · rintro ⟨⟨⟩, hx, hf⟩
    exact ⟨hx, hf⟩
  · rintro ⟨hx, hf⟩
    exact ⟨(), hx, hf⟩

/-- A check: `if !condition { return Err(error) }`. -/
def ensure (condition : Prop) [Decidable condition] (error : ε) : Except ε Unit :=
  if condition then .ok () else .error error

/-- `Option::ok_or`. -/
def okOr (x : Option α) (error : ε) : Except ε α :=
  match x with
  | some a => .ok a
  | none => .error error

theorem ensure_of {condition : Prop} [Decidable condition] (h : condition) (error : ε) :
    ensure condition error = .ok () := if_pos h

@[simp] theorem ensure_true (error : ε) : ensure True error = .ok () := rfl

theorem ensure_eq_ok_iff {condition : Prop} [Decidable condition] {error : ε} {u : Unit} :
    ensure condition error = .ok u ↔ condition := by
  unfold ensure
  split_ifs with h <;> simp [h]

@[simp] theorem okOr_some (a : α) (error : ε) : okOr (some a) error = .ok a := rfl

theorem okOr_eq_ok_iff {x : Option α} {error : ε} {a : α} : okOr x error = .ok a ↔ x = some a := by
  cases x with
  | none => simp [okOr]
  | some b => simp [okOr]

/-- `Result::map_err` keeps a success. -/
theorem mapError_eq_ok_iff {δ : Type} {f : ε → δ} {a : α} : x.mapError f = .ok a ↔ x = .ok a := by
  cases x with
  | error e => simp [Except.mapError]
  | ok b => simp [Except.mapError]

/-- A loop that collects results succeeds when every turn does. -/
theorem mapM_eq_ok_iff {l : List α} {results : List β} :
    l.mapM f = .ok results ↔ l.map f = results.map .ok := by
  induction l generalizing results with
  | nil =>
    cases results with
    | nil => simp [pure, Except.pure]
    | cons b rest => simp [pure, Except.pure]
  | cons a l ih =>
    rw [List.mapM_cons, bind_eq_ok_iff, List.map_cons]
    constructor
    · rintro ⟨b, hb, h⟩
      obtain ⟨rest, hrest, h⟩ := of_bind h
      cases h
      rw [hb, ih.mp hrest, List.map_cons]
    · intro h
      cases results with
      | nil => cases h
      | cons b rest =>
        obtain ⟨hb, hrest⟩ := List.cons.inj h
        exact ⟨b, hb, bind_eq_ok_iff.mpr ⟨rest, ih.mpr hrest, rfl⟩⟩

/-- A computation that ran to a success has a result. -/
theorem exists_ok_of_isOk {x : Option (Except ε α)} (h : x.any Except.isOk = true) :
    ∃ a, x = some (.ok a) := by
  cases x with
  | none => cases h
  | some r =>
    cases r with
    | error e => cases h
    | ok a => exact ⟨a, rfl⟩

end Xprobe.Foundation
