import Mathlib

/-!
# Stable sorting by a key

`sortByKey` is a stable sort: it orders a list by a key and keeps the relative order of elements
with equal keys. Any stable sort returns the same list, because a list sorted by `key` is
determined by its sublists of equal keys (`eq_of_sortedBy_of_filter_eq`). Composition laws follow
from that one characterization: sorting commutes with filtering, and sorting the concatenation of
sorted pieces is sorting the concatenation of the pieces.
-/

namespace Xprobe.Foundation

variable {α β κ : Type*} [LinearOrder κ]

/-- `slice::sort_by_key`: stable sort of a list by `key`. -/
def sortByKey (key : α → κ) (l : List α) : List α :=
  l.insertionSort (fun a b => key a ≤ key b)

/-- The keys of `l` never decrease. -/
def SortedBy (key : α → κ) (l : List α) : Prop :=
  l.Pairwise (fun a b => key a ≤ key b)

/-! ## Basic facts -/

@[simp] theorem sortByKey_nil (key : α → κ) : sortByKey key [] = [] := rfl

theorem sortByKey_perm (key : α → κ) (l : List α) : (sortByKey key l).Perm l :=
  List.perm_insertionSort _ l

variable {key : α → κ} {l : List α}

@[simp] theorem mem_sortByKey {a : α} : a ∈ sortByKey key l ↔ a ∈ l :=
  (sortByKey_perm key l).mem_iff

@[simp] theorem length_sortByKey (key : α → κ) (l : List α) : (sortByKey key l).length = l.length :=
  (sortByKey_perm key l).length_eq

theorem sortByKey_sorted (key : α → κ) (l : List α) : SortedBy key (sortByKey key l) := by
  have : Std.Total (fun a b : α => key a ≤ key b) := ⟨fun a b => le_total (key a) (key b)⟩
  have : IsTrans α (fun a b : α => key a ≤ key b) := ⟨fun _ _ _ => le_trans⟩
  exact List.pairwise_insertionSort _ l

theorem sortByKey_of_sorted (h : SortedBy key l) : sortByKey key l = l :=
  h.insertionSort_eq

theorem SortedBy.sublist {l' : List α} (h : SortedBy key l') (hsub : l.Sublist l') :
    SortedBy key l :=
  List.Pairwise.sublist hsub h

theorem SortedBy.filter (h : SortedBy key l) (p : α → Bool) : SortedBy key (l.filter p) :=
  h.sublist List.filter_sublist

/-- In a sorted list, what has a smaller key stands before. -/
theorem SortedBy.exists_front (h : SortedBy key l) {a b : α} (ha : a ∈ l) (hb : b ∈ l)
    (hlt : key a < key b) : ∃ front back, l = front ++ b :: back ∧ a ∈ front := by
  obtain ⟨front, back, rfl⟩ := List.append_of_mem hb
  refine ⟨front, back, rfl, ?_⟩
  rcases List.mem_append.mp ha with hfront | hback
  · exact hfront
  · have hle : key b ≤ key a := by
      rcases List.mem_cons.mp hback with rfl | hrest
      · exact le_rfl
      · exact (List.pairwise_cons.mp (List.pairwise_append.mp h).2.1).1 a hrest
    exact absurd hle (not_le.mpr hlt)

theorem sortByKey_map (f : α → β) (key : β → κ) (l : List α) :
    sortByKey key (l.map f) = (sortByKey (fun a => key (f a)) l).map f := by
  unfold sortByKey
  refine (List.map_insertionSort (fun a b => key (f a) ≤ key (f b))
    (fun a b => key a ≤ key b) f l ?_).symm
  intro a _ b _
  exact Iff.rfl

/-! ## Stability -/

/-- Elements with one key keep the order they have in the input. -/
theorem filter_key_sortByKey (key : α → κ) (k : κ) (l : List α) :
    (sortByKey key l).filter (fun a => decide (key a = k)) =
      l.filter (fun a => decide (key a = k)) := by
  have hsorted : SortedBy key (l.filter (fun a => decide (key a = k))) := by
    refine List.pairwise_of_forall_mem_list ?_
    intro a ha b hb
    have hka : key a = k := by simpa using (List.mem_filter.mp ha).2
    have hkb : key b = k := by simpa using (List.mem_filter.mp hb).2
    exact le_of_eq (hka.trans hkb.symm)
  -- a sorted sublist of the input is a sublist of its sort, and no element is added
  have hsublist := (List.sublist_insertionSort hsorted List.filter_sublist).filter
    (fun a => decide (key a = k))
  rw [List.filter_filter, List.filter_congr fun a _ => Bool.and_self _] at hsublist
  exact (hsublist.eq_of_length ((sortByKey_perm key l).filter _).length_eq.symm).symm

private theorem key_head_le {a b : α} {l' : List α} (hl : SortedBy key (a :: l))
    (h : ∀ k, (a :: l).filter (fun x => decide (key x = k)) =
      (b :: l').filter (fun x => decide (key x = k))) :
    key a ≤ key b := by
  have hb : b ∈ (a :: l).filter (fun x => decide (key x = key b)) := by
    rw [h (key b)]
    simp
  rcases List.mem_cons.mp (List.mem_filter.mp hb).1 with rfl | hmem
  · exact le_rfl
  · exact (List.pairwise_cons.mp hl).1 b hmem

/-- A list sorted by `key` is determined by its sublists of equal keys. -/
theorem eq_of_sortedBy_of_filter_eq : ∀ {l l' : List α}, SortedBy key l → SortedBy key l' →
      (∀ k, l.filter (fun x => decide (key x = k)) = l'.filter (fun x => decide (key x = k))) →
      l = l'
  | [], [], _, _, _ => rfl
  | [], b :: l', _, _, h => by
    have hb := h (key b)
    simp at hb
  | a :: l, [], _, _, h => by
    have ha := h (key a)
    simp at ha
  | a :: l, b :: l', hl, hl', h => by
    have hkey : key a = key b :=
      le_antisymm (key_head_le hl h) (key_head_le hl' (fun k => (h k).symm))
    have hhead := h (key a)
    rw [List.filter_cons_of_pos (by simp), List.filter_cons_of_pos (by simp [hkey])] at hhead
    obtain ⟨rfl, -⟩ := List.cons.inj hhead
    have htail : ∀ k, l.filter (fun x => decide (key x = k)) =
        l'.filter (fun x => decide (key x = k)) := by
      intro k
      have hk := h k
      simp only [List.filter_cons] at hk
      split_ifs at hk with hak
      · exact List.tail_eq_of_cons_eq hk
      · exact hk
    rw [eq_of_sortedBy_of_filter_eq (List.pairwise_cons.mp hl).2 (List.pairwise_cons.mp hl').2
      htail]

/-- Two lists with the same sublists of equal keys have the same stable sort. -/
theorem sortByKey_congr {l' : List α}
    (h : ∀ k, l.filter (fun x => decide (key x = k)) = l'.filter (fun x => decide (key x = k))) :
    sortByKey key l = sortByKey key l' := by
  refine eq_of_sortedBy_of_filter_eq (sortByKey_sorted key l) (sortByKey_sorted key l') ?_
  intro k
  rw [filter_key_sortByKey, filter_key_sortByKey, h k]

/-- Stable sorting commutes with filtering. -/
theorem filter_sortByKey (key : α → κ) (p : α → Bool) (l : List α) :
    (sortByKey key l).filter p = sortByKey key (l.filter p) := by
  refine eq_of_sortedBy_of_filter_eq ((sortByKey_sorted key l).filter p) (sortByKey_sorted key _) ?_
  intro k
  rw [filter_key_sortByKey, List.filter_comm, filter_key_sortByKey, List.filter_comm]

/-- When the keys are distinct, the sorted list does not depend on the order of the input. -/
theorem sortByKey_eq_of_perm {l' : List α} (hperm : l.Perm l') (hnodup : (l.map key).Nodup) :
    sortByKey key l = sortByKey key l' := by
  apply sortByKey_congr
  intro k
  have hfilter := hperm.filter (fun x => decide (key x = k))
  -- at most one element has the key, so the permutation is an equality
  have hlength : (l.filter (fun x => decide (key x = k))).length ≤ 1 := by
    have hcount := List.nodup_iff_count_le_one.mp hnodup k
    rwa [List.count_eq_countP, List.countP_map, List.countP_eq_length_filter] at hcount
  rcases hl : l.filter (fun x => decide (key x = k)) with _ | ⟨a, _ | ⟨b, rest⟩⟩
  · rw [hl] at hfilter
    exact (List.nil_perm.mp hfilter).symm
  · rw [hl] at hfilter
    exact List.singleton_perm.mp hfilter
  · rw [hl] at hlength
    simp at hlength

/-- Sorting gives the one permutation in which the keys increase, if there is one. -/
theorem sortByKey_eq_of_perm_sorted {sorted : List α} (hperm : l.Perm sorted)
    (hsorted : sorted.Pairwise (fun a b => key a < key b)) :
    sortByKey key l = sorted := by
  have hnodup : (sorted.map key).Nodup := by
    rw [List.Nodup, List.pairwise_map]
    exact hsorted.imp (·.ne)
  rw [← sortByKey_eq_of_perm hperm.symm hnodup]
  exact sortByKey_of_sorted (hsorted.imp (·.le))

theorem sortByKey_append_congr {l₁ l₂ m₁ m₂ : List α} (h₁ : sortByKey key l₁ = sortByKey key m₁)
    (h₂ : sortByKey key l₂ = sortByKey key m₂) :
    sortByKey key (l₁ ++ l₂) = sortByKey key (m₁ ++ m₂) := by
  apply sortByKey_congr
  intro k
  rw [List.filter_append, List.filter_append, ← filter_key_sortByKey key k l₁, h₁,
    ← filter_key_sortByKey key k l₂, h₂, filter_key_sortByKey, filter_key_sortByKey]

@[simp] theorem sortByKey_sortByKey (key : α → κ) (l : List α) :
    sortByKey key (sortByKey key l) = sortByKey key l :=
  sortByKey_of_sorted (sortByKey_sorted key l)

/-- Sorting the pieces of a list before concatenating them does not change the final sort. -/
theorem sortByKey_flatMap_sortByKey (key : α → κ) (pieces : List (List α)) :
    sortByKey key (pieces.flatMap (sortByKey key)) = sortByKey key pieces.flatten := by
  induction pieces with
  | nil => rfl
  | cons piece pieces ih =>
    rw [List.flatMap_cons, List.flatten_cons]
    exact sortByKey_append_congr (sortByKey_sortByKey key piece) ih

/-! ## Sorting the first elements only -/

/-- Two lists of which the first has the smaller keys are sorted one after the other. -/
theorem sortByKey_append_of_le {front back : List α} (h : ∀ a ∈ front, ∀ b ∈ back, key a ≤ key b) :
    sortByKey key (front ++ back) = sortByKey key front ++ sortByKey key back := by
  refine eq_of_sortedBy_of_filter_eq (sortByKey_sorted key _) ?_ ?_
  · refine List.pairwise_append.mpr ⟨sortByKey_sorted key front, sortByKey_sorted key back, ?_⟩
    intro a ha b hb
    exact h a (mem_sortByKey.mp ha) b (mem_sortByKey.mp hb)
  · intro k
    rw [filter_key_sortByKey, List.filter_append, List.filter_append, filter_key_sortByKey,
      filter_key_sortByKey]

/-- Sorting the first elements of a list gives the first elements of the sorted list exactly when
    none of them has a larger key than a later one. -/
theorem sortByKey_take_eq_iff {n : ℕ} : sortByKey key (l.take n) = (sortByKey key l).take n ↔
      ∀ a ∈ l.take n, ∀ b ∈ l.drop n, key a ≤ key b := by
  constructor
  · intro heq a ha b hb
    -- what the sorted list has behind its first elements is the rest of the list
    have hsplit : sortByKey key (l.take n) ++ (sortByKey key l).drop n = sortByKey key l := by
      rw [heq, List.take_append_drop]
    have hrest : ((sortByKey key l).drop n).Perm (l.drop n) := by
      refine (List.perm_append_left_iff (sortByKey key (l.take n))).mp ?_
      rw [hsplit]
      refine (sortByKey_perm key l).trans ?_
      have happend := (sortByKey_perm key (l.take n)).append_right (l.drop n)
      rw [List.take_append_drop] at happend
      exact happend.symm
    have hsorted := sortByKey_sorted key l
    rw [← hsplit] at hsorted
    exact (List.pairwise_append.mp hsorted).2.2 a (mem_sortByKey.mpr ha) b (hrest.mem_iff.mpr hb)
  · intro h
    have hsorted := sortByKey_append_of_le h
    rw [List.take_append_drop] at hsorted
    rw [hsorted]
    rcases le_total n l.length with hle | hle
    · have hlength : (sortByKey key (l.take n)).length = n := by
        rw [length_sortByKey, List.length_take, min_eq_left hle]
      exact (List.take_left' hlength).symm
    · have hdrop : l.drop n = [] := List.drop_eq_nil_of_le hle
      rw [hdrop, sortByKey_nil, List.append_nil]
      refine (List.take_of_length_le ?_).symm
      rw [length_sortByKey]
      exact List.length_take_le n l

/-! ## Order statistics -/

/-- The elements of a sorted list up to a bound are its first ones. -/
theorem SortedBy.filter_le_initial (h : SortedBy key l) (bound : κ) :
    l.filter (fun a => decide (key a ≤ bound)) <+: l := by
  induction l with
  | nil => exact List.prefix_rfl
  | cons a l ih =>
    obtain ⟨hfirst, hrest⟩ := List.pairwise_cons.mp h
    by_cases ha : key a ≤ bound
    · rw [List.filter_cons_of_pos (by simpa using ha)]
      exact (List.prefix_cons_inj a).mpr (ih hrest)
    · -- nothing behind `a` is small enough either
      have hnone : (a :: l).filter (fun a => decide (key a ≤ bound)) = [] := by
        rw [List.filter_eq_nil_iff]
        intro b hb hle
        rcases List.mem_cons.mp hb with rfl | hmem
        · exact ha (by simpa using hle)
        · exact ha (le_trans (hfirst b hmem) (by simpa using hle))
      rw [hnone]
      exact List.nil_prefix

/-- The elements of a sorted list up to a position are not above the one there. -/
theorem SortedBy.lt_countP (h : SortedBy key l) {i : ℕ} (hi : i < l.length) {p : α → Bool}
    (hp : ∀ a, key a ≤ key l[i] → p a = true) :
    i < l.countP p := by
  have hfront : ∀ a ∈ l.take (i + 1), p a = true := by
    intro a ha
    obtain ⟨j, hj, rfl⟩ := List.mem_take_iff_getElem.mp ha
    apply hp
    rcases (show j ≤ i by omega).lt_or_eq with hlt | rfl
    · exact List.pairwise_iff_getElem.mp h j i _ hi hlt
    · exact le_refl _
  have hcount : (l.take (i + 1)).countP p ≤ l.countP p := (List.take_sublist (i + 1) l).countP_le
  rw [List.countP_eq_length.mpr hfront, List.length_take] at hcount
  omega

/-- The elements of a sorted list from a position on are not below the one there. -/
theorem SortedBy.countP_le (h : SortedBy key l) {i : ℕ} (hi : i < l.length) {p : α → Bool}
    (hp : ∀ a, p a = true → key a < key l[i]) :
    l.countP p ≤ i := by
  have hback : (l.drop i).countP p = 0 := by
    rw [List.countP_eq_zero]
    intro a ha hpa
    obtain ⟨j, hj, rfl⟩ := List.mem_drop_iff_getElem.mp ha
    refine absurd (hp _ hpa) (not_lt.mpr ?_)
    rcases Nat.eq_zero_or_pos j with rfl | hpos
    · exact le_refl _
    · exact List.pairwise_iff_getElem.mp h i (i + j) hi _ (by omega)
  have hsplit : (l.take i ++ l.drop i).countP p = (l.take i).countP p + (l.drop i).countP p :=
    List.countP_append
  have hfront : (l.take i).countP p ≤ i := List.countP_le_length.trans (List.length_take_le i l)
  rw [List.take_append_drop, hback] at hsplit
  omega

/-- If one key is never above another, then the i-th smallest value of the first is not above the
    i-th smallest value of the second. -/
theorem forall₂_sortByKey {f g : α → κ} (h : ∀ a ∈ l, f a ≤ g a) :
    List.Forall₂ (fun a b => f a ≤ g b) (sortByKey f l) (sortByKey g l) := by
  refine List.forall₂_iff_get.mpr ⟨by simp, ?_⟩
  intro i hf hg
  by_contra hlt
  -- more than `i` elements are up to the value for `g`, but at most `i` are below that for `f`
  have hmany := (sortByKey_sorted g l).lt_countP hg
    (p := fun a => decide (g a ≤ g (sortByKey g l)[i])) (by simp)
  have hfew := (sortByKey_sorted f l).countP_le hf
    (p := fun a => decide (f a ≤ g (sortByKey g l)[i])) (by
      intro a ha
      exact (of_decide_eq_true ha).trans_lt (not_le.mp hlt))
  rw [(sortByKey_perm _ l).countP_eq] at hmany hfew
  refine absurd (List.countP_mono_left ?_) (hfew.trans_lt hmany).not_ge
  intro a ha hle
  exact decide_eq_true ((h a ha).trans (of_decide_eq_true hle))

end Xprobe.Foundation
