import Mathlib

/-!
# Sharded accumulators

An accumulator that is kept in several slots: each write goes to one slot, and a reader combines the
slots afterwards. A slot holds what the writes to it give in their order, whatever was written to
the others (`foldl_writeShard`); what does not depend on the order comes out as if all writes had
gone to one slot (`sum_onShard`, `mem_writes_iff`).
-/

namespace Xprobe.Foundation

variable {ι α β : Type*} [DecidableEq ι]

/-- What is written to one slot, in order. -/
def onShard (i : ι) (writes : List (ι × β)) : List β :=
  (writes.filter (fun write => write.1 = i)).map Prod.snd

def writeShard (f : α → β → α) (slots : ι → α) (write : ι × β) : ι → α :=
  Function.update slots write.1 (f (slots write.1) write.2)

@[simp] theorem onShard_nil (i : ι) : onShard i ([] : List (ι × β)) = [] := rfl

theorem onShard_cons (i : ι) (write : ι × β) (writes : List (ι × β)) : onShard i (write :: writes) =
      if write.1 = i then write.2 :: onShard i writes else onShard i writes := by
  unfold onShard
  rw [List.filter_cons]
  split_ifs with h h' h'
  · rw [List.map_cons]
  · exact absurd (of_decide_eq_true h) h'
  · exact absurd (decide_eq_true h') h
  · rfl

/-- A slot depends on the writes to it only. -/
theorem foldl_writeShard (f : α → β → α) (slots : ι → α) (writes : List (ι × β)) (i : ι) :
    writes.foldl (writeShard f) slots i = (onShard i writes).foldl f (slots i) := by
  induction writes generalizing slots with
  | nil => rfl
  | cons write writes ih =>
    rw [List.foldl_cons, ih, onShard_cons, writeShard]
    split_ifs with h
    · rw [← h, Function.update_self, List.foldl_cons]
    · rw [Function.update_of_ne (Ne.symm h)]

/-- The slots together have every write once. -/
theorem sum_onShard [Fintype ι] (g : β → ℕ) (writes : List (ι × β)) :
    ∑ i, ((onShard i writes).map g).sum = ((writes.map Prod.snd).map g).sum := by
  induction writes with
  | nil => simp
  | cons write writes ih =>
    have hone : ∀ i, ((onShard i (write :: writes)).map g).sum =
        (if write.1 = i then g write.2 else 0) + ((onShard i writes).map g).sum := by
      intro i
      rw [onShard_cons]
      split_ifs <;> simp
    simp only [hone, Finset.sum_add_distrib, ih, Finset.sum_ite_eq, Finset.mem_univ, if_true,
      List.map_cons, List.sum_cons]

theorem mem_onShard_iff {i : ι} {b : β} {writes : List (ι × β)} :
    b ∈ onShard i writes ↔ (i, b) ∈ writes := by
  simp [onShard]

/-! ## Counting by key -/

theorem sum_map_ite_eq_countP (p : α → Bool) (l : List α) :
    (l.map (fun a => if p a then 1 else 0)).sum = l.countP p := by
  induction l with
  | nil => rfl
  | cons a l ih => rw [List.map_cons, List.sum_cons, ih, List.countP_cons, Nat.add_comm]

/-- Elements that add nothing can be left out. -/
theorem sum_map_filter_of_zero {p : α → Bool} {f : α → ℕ} {l : List α}
    (h : ∀ a ∈ l, p a = false → f a = 0) : ((l.filter p).map f).sum = (l.map f).sum := by
  induction l with
  | nil => rfl
  | cons a l ih =>
    have hrest := ih (fun a' ha' => h a' (List.mem_cons_of_mem _ ha'))
    cases hp : p a with
    | true => rw [List.filter_cons_of_pos hp, List.map_cons, List.map_cons, List.sum_cons,
        List.sum_cons, hrest]
    | false => rw [List.filter_cons_of_neg (by simp [hp]), List.map_cons, List.sum_cons, hrest,
        h a List.mem_cons_self hp, Nat.zero_add]

/-- Distinct keys that cover a list split it into parts. -/
theorem sum_countP_key (key : α → ι) {keys : List ι} (hnodup : keys.Nodup) {l : List α}
    (hcover : ∀ a ∈ l, key a ∈ keys) :
    (keys.map (fun k => l.countP (fun a => key a = k))).sum = l.length := by
  induction l with
  | nil => simp
  | cons a l ih =>
    have hone : keys.countP (fun k => key a = k) = 1 := by
      have hcount := List.count_eq_one_of_mem hnodup (hcover a List.mem_cons_self)
      rw [List.count] at hcount
      rw [← hcount]
      congr 1
      funext k
      rw [Bool.eq_iff_iff, decide_eq_true_eq, beq_iff_eq]
      exact eq_comm
    simp only [List.countP_cons, List.sum_map_add, decide_eq_true_eq,
      ih (fun a' ha' => hcover a' (List.mem_cons_of_mem _ ha'))]
    have hsum := sum_map_ite_eq_countP (fun k => decide (key a = k)) keys
    simp only [decide_eq_true_eq] at hsum
    rw [hsum, hone, List.length_cons]

/-- Distinct keys that cover a list put it together again. -/
theorem perm_flatMap_filter_key (key : α → ι) {keys : List ι} (hnodup : keys.Nodup) {l : List α}
    (hcover : ∀ a ∈ l, key a ∈ keys) :
    l.Perm (keys.flatMap (fun k => l.filter (fun a => key a = k))) := by
  induction keys generalizing l with
  | nil =>
    rw [List.eq_nil_iff_forall_not_mem.mpr (fun a ha => List.not_mem_nil (hcover a ha))]
    rfl
  | cons k keys ih =>
    obtain ⟨hk, hnodup⟩ := List.nodup_cons.mp hnodup
    have hrest := @ih hnodup (l.filter (fun a => !decide (key a = k))) (by
      intro a ha
      obtain ⟨hmem, hne⟩ := List.mem_filter.mp ha
      have hkey : key a ≠ k := by simpa using hne
      exact (List.mem_cons.mp (hcover a hmem)).resolve_left hkey)
    -- the other keys have the same elements with and without those of the first key
    have hsame : ∀ k' ∈ keys, (l.filter (fun a => !decide (key a = k))).filter
        (fun a => key a = k') = l.filter (fun a => key a = k') := by
      intro k' hk'
      rw [List.filter_filter]
      apply List.filter_congr
      intro a _
      by_cases hkey : key a = k'
      · have hne : key a ≠ k := fun h => hk (h ▸ hkey ▸ hk')
        simp [hkey, hkey ▸ hne]
      · simp [hkey]
    rw [List.flatMap_congr hsame] at hrest
    rw [List.flatMap_cons]
    exact (List.filter_append_perm (fun a => decide (key a = k)) l).symm.trans
      (hrest.append_left _)

omit [DecidableEq ι] in
/-- The elements of one key, in a list that has a piece for each key. -/
theorem filter_flatMap_key {γ : Type*} (key : γ → ι) (piece : γ → List α) {p : α → Bool} {k : ι}
    {owners : List γ} (hnodup : (owners.map key).Nodup)
    (hp : ∀ owner ∈ owners, ∀ a ∈ piece owner, p a = true ↔ key owner = k) {owner : γ}
    (howner : owner ∈ owners) (hkey : key owner = k) :
    (owners.flatMap piece).filter p = piece owner := by
  induction owners with
  | nil => cases howner
  | cons first owners ih =>
    rw [List.map_cons, List.nodup_cons] at hnodup
    have hpieces := fun other hother => hp other (List.mem_cons_of_mem first hother)
    rw [List.flatMap_cons, List.filter_append]
    rcases List.mem_cons.mp howner with rfl | hlater
    · -- the pieces of the other owners have other keys
      have hothers : (owners.flatMap piece).filter p = [] := by
        rw [List.filter_eq_nil_iff]
        intro a ha hpa
        obtain ⟨other, hother, hmem⟩ := List.mem_flatMap.mp ha
        have hsame := (hpieces other hother a hmem).mp hpa
        exact hnodup.1 (List.mem_map.mpr ⟨other, hother, hsame.trans hkey.symm⟩)
      rw [hothers, List.append_nil, List.filter_eq_self]
      exact fun a ha => (hp owner List.mem_cons_self a ha).mpr hkey
    · have hfirst : (piece first).filter p = [] := by
        rw [List.filter_eq_nil_iff]
        intro a ha hpa
        have hsame := (hp first List.mem_cons_self a ha).mp hpa
        exact hnodup.1 (List.mem_map.mpr ⟨owner, hlater, hkey.trans hsame.symm⟩)
      rw [hfirst, List.nil_append, ih hnodup.2 hpieces hlater]

/-! ## Extrema of several slots -/

section Extrema

variable {γ : Type*} [LinearOrder γ]

theorem isLeast_foldl_min (l : List γ) (first : γ) :
    IsLeast {c | c = first ∨ c ∈ l} (l.foldl min first) := by
  induction l generalizing first with
  | nil => simp
  | cons a l ih =>
    obtain ⟨hmem, hle⟩ := ih (min first a)
    constructor
    · rcases hmem with heq | hmem
      · rcases min_choice first a with hmin | hmin
        · exact .inl (heq.trans hmin)
        · exact .inr (List.mem_cons.mpr (.inl (heq.trans hmin)))
      · exact .inr (List.mem_cons_of_mem _ hmem)
    · rintro c (rfl | hc)
      · exact (hle (.inl rfl)).trans (min_le_left _ _)
      · rcases List.mem_cons.mp hc with rfl | hc
        · exact (hle (.inl rfl)).trans (min_le_right _ _)
        · exact hle (.inr hc)

/-- The fold starts above all elements, so that only they count. -/
theorem isLeast_foldl_min_of_ne_nil {l : List γ} (hne : l ≠ []) {top : γ} (htop : ∀ c, c ≤ top) :
    IsLeast {c | c ∈ l} (l.foldl min top) := by
  obtain ⟨hmem, hle⟩ := isLeast_foldl_min l top
  refine ⟨?_, fun c hc => hle (.inr hc)⟩
  rcases hmem with heq | hmem
  · obtain ⟨c, hc⟩ := List.exists_mem_of_ne_nil l hne
    have hc' : c = l.foldl min top := le_antisymm ((htop c).trans (ge_of_eq heq)) (hle (.inr hc))
    exact hc' ▸ hc
  · exact hmem

theorem isGreatest_foldl_max_of_ne_nil {l : List γ} (hne : l ≠ []) {bottom : γ}
    (hbottom : ∀ c, bottom ≤ c) : IsGreatest {c | c ∈ l} (l.foldl max bottom) :=
  @isLeast_foldl_min_of_ne_nil γᵒᵈ _ l hne bottom hbottom

end Extrema

end Xprobe.Foundation
