import Mathlib

/-!
# Ledgers

A loop that consumes a list puts each element somewhere: into its result, into a table of
elements it still holds, or into a counter of elements it gave up. `Ledger placed lost total`
states that this bookkeeping is exact: the elements in `placed` are elements of `total`, none used
more often than it occurs there, and the counter `lost` makes up the difference.

A loop invariant built from ledgers needs one of the rules below for each branch of the loop body,
and gives both that no element is used twice and that no element disappears.
-/

namespace Xprobe.Foundation

/-- `placed` uses elements of `total`, each at most as often as it occurs, and `lost` counts the
    others. -/
structure Ledger {α : Type*} (placed : List α) (lost : Nat) (total : List α) : Prop where
  subperm : placed.Subperm total
  balance : placed.length + lost = total.length

namespace Ledger

variable {α : Type*} {placed placed' total total' : List α} {lost lost' : Nat}

/-! ## Moves -/

theorem nil : Ledger ([] : List α) 0 [] := ⟨List.Subperm.refl _, rfl⟩

/-- All elements are placed. -/
theorem of_perm (h : placed.Perm total) : Ledger placed 0 total :=
  ⟨h.subperm, h.length_eq⟩

/-- A new element is placed. -/
theorem place (a : α) (h : Ledger placed lost total) : Ledger (a :: placed) lost (a :: total) := by
  refine ⟨(List.subperm_cons a).mpr h.subperm, ?_⟩
  have := h.balance
  simp only [List.length_cons]
  omega

/-- A new element is given up at once. -/
theorem lose (a : α) (h : Ledger placed lost total) : Ledger placed (lost + 1) (a :: total) := by
  refine ⟨h.subperm.trans (List.sublist_cons_self a total).subperm, ?_⟩
  have := h.balance
  simp only [List.length_cons]
  omega

/-- Elements placed earlier are given up. -/
theorem drop (block : List α) {front rest : List α}
    (h : Ledger (front ++ (block ++ rest)) lost total) :
    Ledger (front ++ rest) (lost + block.length) total := by
  have hsub : (front ++ rest).Sublist (front ++ (block ++ rest)) :=
    (List.Sublist.refl front).append (List.sublist_append_right block rest)
  refine ⟨hsub.subperm.trans h.subperm, ?_⟩
  have := h.balance
  simp only [List.length_append] at this ⊢
  omega

/-- Neither side depends on its order. -/
theorem perm (h : Ledger placed lost total) (hp : placed.Perm placed') (ht : total.Perm total') :
    Ledger placed' lost total' := by
  refine ⟨(hp.symm.subperm.trans h.subperm).trans ht.subperm, ?_⟩
  rw [← hp.length_eq, ← ht.length_eq]
  exact h.balance

/-! ## Consequences -/

theorem mem (h : Ledger placed lost total) {a : α} (ha : a ∈ placed) : a ∈ total :=
  h.subperm.subset ha

theorem subperm_left {rest : List α} (h : Ledger (placed ++ rest) lost total) :
    placed.Subperm total :=
  (List.sublist_append_left _ _).subperm.trans h.subperm

end Ledger

end Xprobe.Foundation
