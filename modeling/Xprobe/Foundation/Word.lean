import Mathlib

/-!
# Machine words and slices

The fixed-width integers and the slices of a 64-bit Rust or C program.

* `UInt32` and `UInt64` are linear orders, so they can key ordered maps and stable sorts.
* `checkedAdd`, `checkedSub` and `absDiff` are the standard library's operations.
* `Slice` is a list no longer than `isize::MAX`, the bound every slice has in memory.

A plain `a - b` on unsigned words panics when `a < b`; it is written `checkedSub a b` in `Option`,
with `none` for the panic.
-/

namespace Xprobe.Foundation

/-! ## Order on machine words -/

instance linearOrderUInt64 : LinearOrder UInt64 where
  le_refl a := UInt64.le_refl a
  le_trans a b c := UInt64.le_trans
  lt_iff_le_not_ge a b := by
    simp only [UInt64.lt_iff_toNat_lt, UInt64.le_iff_toNat_le]
    omega
  le_antisymm a b := UInt64.le_antisymm
  le_total a b := UInt64.le_total a b
  toDecidableLE := inferInstance

instance linearOrderUInt32 : LinearOrder UInt32 where
  le_refl a := UInt32.le_refl a
  le_trans a b c := UInt32.le_trans
  lt_iff_le_not_ge a b := by
    simp only [UInt32.lt_iff_toNat_lt, UInt32.le_iff_toNat_le]
    omega
  le_antisymm a b := UInt32.le_antisymm
  le_total a b := UInt32.le_total a b
  toDecidableLE := inferInstance

/-! ## Checked arithmetic -/

/-- `u64::checked_add`. -/
def checkedAdd (a b : UInt64) : Option UInt64 :=
  if a.toNat + b.toNat < 2 ^ 64 then some (a + b) else none

/-- `u64::checked_sub`. -/
def checkedSub (a b : UInt64) : Option UInt64 :=
  if b ≤ a then some (a - b) else none

/-- `u64::abs_diff`. -/
def absDiff (a b : UInt64) : UInt64 :=
  if b ≤ a then a - b else b - a

@[simp] theorem checkedSub_of_le {a b : UInt64} (h : b ≤ a) :
    checkedSub a b = some (a - b) := if_pos h

theorem checkedSub_eq_some {a b c : UInt64} : checkedSub a b = some c ↔ b ≤ a ∧ c = a - b := by
  unfold checkedSub
  split_ifs with h
  · simp [h, eq_comm]
  · simp [h]

theorem checkedAdd_eq_some {a b c : UInt64} :
    checkedAdd a b = some c ↔ a.toNat + b.toNat < 2 ^ 64 ∧ c = a + b := by
  unfold checkedAdd
  split_ifs with h
  · simp only [Option.some.injEq, h, true_and, eq_comm]
  · simp only [h, false_and]

theorem toNat_of_checkedAdd {a b c : UInt64} (h : checkedAdd a b = some c) :
    c.toNat = a.toNat + b.toNat := by
  obtain ⟨hlt, rfl⟩ := checkedAdd_eq_some.mp h
  rw [UInt64.toNat_add, Nat.mod_eq_of_lt hlt]

/-! ## Saturating arithmetic -/

/-- `u64::saturating_add`. -/
def saturatingAdd (a b : UInt64) : UInt64 :=
  if a.toNat + b.toNat < 2 ^ 64 then a + b else UInt64.ofNat (2 ^ 64 - 1)

theorem toNat_saturatingAdd (a b : UInt64) :
    (saturatingAdd a b).toNat = min (a.toNat + b.toNat) (2 ^ 64 - 1) := by
  unfold saturatingAdd
  split_ifs with h
  · rw [UInt64.toNat_add, Nat.mod_eq_of_lt h, Nat.min_eq_left (by omega)]
  · rw [UInt64.toNat_ofNat', Nat.mod_eq_of_lt (by decide), Nat.min_eq_right (by omega)]

/-- A saturating sum is exact up to the largest word. -/
theorem toNat_foldl_saturatingAdd (words : List UInt64) (first : UInt64) :
    (words.foldl saturatingAdd first).toNat =
      min (first.toNat + (words.map UInt64.toNat).sum) (2 ^ 64 - 1) := by
  induction words generalizing first with
  | nil =>
    have := first.toNat_lt
    simp only [List.foldl_nil, List.map_nil, List.sum_nil]
    omega
  | cons word words ih =>
    rw [List.foldl_cons, ih, toNat_saturatingAdd, List.map_cons, List.sum_cons]
    omega

/-! ## Sizes -/

/-- `usize::MAX` on a 64-bit target. -/
def usizeMax : Nat := 2 ^ 64 - 1

/-- `isize::MAX` on a 64-bit target: the largest number of bytes, hence of elements of a type
    that is not zero-sized, that one slice can hold. -/
def isizeMax : Nat := 2 ^ 63 - 1

/-- A slice `&[α]`: a list that fits in memory. -/
structure Slice (α : Type*) where
  toList : List α
  length_le : toList.length ≤ isizeMax

theorem Slice.length_lt_usizeMax {α : Type*} (s : Slice α) : s.toList.length < usizeMax := by
  have h := s.length_le
  simp only [isizeMax, usizeMax] at *
  omega

end Xprobe.Foundation
