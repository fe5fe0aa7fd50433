import Mathlib

/-!
# Matching forward in time

Two lists of items with a time, and pairs that join an item of the first list to an item of the
second list that is not earlier. `firstAfter` is the scan that gives each item of the first list, in
order, the first remaining item of the second list at or after it, and gives up what it passes over.

On sorted lists the scan is the quadratic search among all items not taken yet
(`firstAfterReference_eq`), and as long as any matching (`length_le_firstAfter`). The latter is a
duality argument: a threshold in time bounds every matching, and the scan meets the bound of one.

In `BestChoices` each item of the first list takes what it prefers among all that are left.
-/

namespace Xprobe.Foundation

variable {α β τ : Type*} [LinearOrder τ] (left : α → τ) (right : β → τ)

def firstAfter : List α → List β → List (α × β)
  | [], _ => []
  | a :: rest, bs =>
    match bs.dropWhile (fun b => right b < left a) with
    | [] => []
    | b :: after => (a, b) :: firstAfter rest after

@[simp] theorem firstAfter_nil_right (as : List α) : firstAfter left right as [] = [] := by
  cases as with
  | nil => rfl
  | cons a rest => rfl

/-- The items of the second list before `a`, and what remains: the two cases of a turn. -/
theorem exists_dropWhile_lt (a : α) (bs : List β) :
    ∃ skipped, bs = skipped ++ bs.dropWhile (fun b => right b < left a) ∧
      ∀ b ∈ skipped, right b < left a := by
  refine ⟨bs.takeWhile (fun b => right b < left a), (List.takeWhile_append_dropWhile).symm, ?_⟩
  intro b hb
  simpa using List.mem_takeWhile_imp hb

variable {bs : List β} {as : List α} {pairs : List (α × β)}

theorem le_of_dropWhile_eq_cons {a : α} {b : β} {after : List β}
    (h : bs.dropWhile (fun b => right b < left a) = b :: after) : left a ≤ right b := by
  have hhead := List.head?_dropWhile_not (fun b => decide (right b < left a)) bs
  rw [h] at hhead
  simpa using hhead

/-! ## The search through all items -/

/-- The earliest item at or after `t` whose position is not taken. -/
def earliestFree (bs : List β) (used : List Nat) (t : τ) : Option (β × Nat) :=
  (bs.zipIdx.filter (fun entry => t ≤ right entry.1 ∧ entry.2 ∉ used)).argmin
    (fun entry => right entry.1)

/-- Each item of the first list takes the earliest item at or after it that is not taken. -/
def firstAfterReference (bs : List β) : List α → List Nat → List (α × β)
  | [], _ => []
  | a :: rest, used =>
    match earliestFree right bs used (left a) with
    | none => firstAfterReference bs rest used
    | some (b, position) => (a, b) :: firstAfterReference bs rest (position :: used)

/-- The least item of a list whose head is least is the head. -/
private theorem argmin_cons_of_le {γ : Type*} (f : γ → τ) {c : γ} {l : List γ}
    (h : ∀ d ∈ l, f c ≤ f d) : (c :: l).argmin f = some c := by
  rw [List.argmin_cons]
  cases hmin : l.argmin f with
  | none => rfl
  | some d =>
    have hle := h d (List.argmin_mem hmin)
    simp [not_lt.mpr hle]

/-- The search sees nothing among positions that are taken or too early. -/
private theorem filter_done_eq_nil {done : List β} {used : List Nat} {t : τ}
    (h : ∀ entry ∈ done.zipIdx, entry.2 ∈ used ∨ right entry.1 < t) :
    done.zipIdx.filter (fun entry => t ≤ right entry.1 ∧ entry.2 ∉ used) = [] := by
  apply List.filter_eq_nil_iff.mpr
  intro entry hentry
  rw [decide_eq_true_eq, not_and_or, not_not, not_le]
  exact (h entry hentry).symm

/-- The search among the items that the scan has not passed. -/
private theorem earliestFree_append {done todo : List β} {used : List Nat} {t : τ}
    (hdone : ∀ entry ∈ done.zipIdx, entry.2 ∈ used ∨ right entry.1 < t)
    (hused : ∀ position ∈ used, position < done.length) :
    earliestFree right (done ++ todo) used t =
      ((todo.zipIdx done.length).filter (fun entry => t ≤ right entry.1)).argmin
        (fun entry => right entry.1) := by
  rw [earliestFree, List.zipIdx_append, List.filter_append, filter_done_eq_nil right hdone,
    List.nil_append, Nat.zero_add]
  congr 1
  apply List.filter_congr
  intro entry hentry
  have hposition := List.le_snd_of_mem_zipIdx hentry
  have hfree : entry.2 ∉ used := by
    intro hmem
    have := hused _ hmem
    omega
  simp [hfree]

private theorem filter_zipIdx_eq_nil {skipped : List β} {t : τ} (start : Nat)
    (h : ∀ b ∈ skipped, right b < t) :
    (skipped.zipIdx start).filter (fun entry => t ≤ right entry.1) = [] := by
  apply List.filter_eq_nil_iff.mpr
  intro entry hentry
  rw [decide_eq_true_eq, not_le]
  exact h _ (List.fst_mem_of_mem_zipIdx hentry)

/-- The scan of the items in `todo` is the search, once every item in `done` is taken or earlier than
    all that is left of the first list. -/
private theorem firstAfterReference_eq_from {done todo : List β} {used : List Nat}
    (has : as.Pairwise (fun a a' => left a ≤ left a'))
    (htodo : todo.Pairwise (fun b b' => right b ≤ right b'))
    (hdone : ∀ entry ∈ done.zipIdx, entry.2 ∈ used ∨ ∀ a ∈ as, right entry.1 < left a)
    (hused : ∀ position ∈ used, position < done.length) :
    firstAfterReference left right (done ++ todo) as used = firstAfter left right as todo := by
  induction as generalizing done todo used with
  | nil => rfl
  | cons a rest ih =>
    obtain ⟨hfirst, hrest⟩ := List.pairwise_cons.mp has
    obtain ⟨skipped, htodo_eq, hskipped⟩ := exists_dropWhile_lt left right a todo
    have hhere : ∀ entry ∈ done.zipIdx, entry.2 ∈ used ∨ right entry.1 < left a := by
      intro entry hentry
      exact (hdone entry hentry).imp_right (fun h => h a List.mem_cons_self)
    -- what the scan passes over here is too early for the rest of the first list as well
    have hpassed : ∀ entry ∈ (done ++ skipped).zipIdx,
        entry.2 ∈ used ∨ ∀ a ∈ rest, right entry.1 < left a := by
      intro entry hentry
      rw [List.zipIdx_append, List.mem_append] at hentry
      rcases hentry with hold | hnew
      · exact (hdone entry hold).imp_right (fun h a' ha' => h a' (List.mem_cons_of_mem _ ha'))
      · right
        intro a' ha'
        exact lt_of_lt_of_le (hskipped _ (List.fst_mem_of_mem_zipIdx hnew)) (hfirst a' ha')
    rw [firstAfterReference, firstAfter, earliestFree_append right hhere hused]
    cases hremaining : todo.dropWhile (fun b => right b < left a) with
    | nil =>
      rw [hremaining, List.append_nil] at htodo_eq
      subst htodo_eq
      rw [filter_zipIdx_eq_nil right _ hskipped]
      have hinside : ∀ position ∈ used, position < (done ++ todo).length := by
        intro position hposition
        rw [List.length_append]
        exact Nat.lt_add_right _ (hused _ hposition)
      have hend := ih hrest List.Pairwise.nil hpassed hinside
      rw [List.append_nil] at hend
      simpa using hend
    | cons b after =>
      rw [hremaining] at htodo_eq
      subst htodo_eq
      obtain ⟨-, hsorted, -⟩ := List.pairwise_append.mp htodo
      obtain ⟨hleast, hafter⟩ := List.pairwise_cons.mp hsorted
      have hb := le_of_dropWhile_eq_cons left right hremaining
      -- the candidates are `b` and later items, which are not earlier
      have hsearch : (((skipped ++ b :: after).zipIdx done.length).filter
          (fun entry => left a ≤ right entry.1)).argmin (fun entry => right entry.1) =
          some (b, done.length + skipped.length) := by
        rw [List.zipIdx_append, List.filter_append, filter_zipIdx_eq_nil right _ hskipped,
          List.nil_append, List.zipIdx_cons, List.filter_cons_of_pos (by simpa using hb)]
        apply argmin_cons_of_le
        intro entry hentry
        exact hleast _ (List.fst_mem_of_mem_zipIdx (List.mem_filter.mp hentry).1)
      have htaken : ∀ entry ∈ (done ++ skipped ++ [b]).zipIdx,
          entry.2 ∈ (done.length + skipped.length) :: used ∨ ∀ a ∈ rest, right entry.1 < left a := by
        intro entry hentry
        rw [List.zipIdx_append, List.mem_append] at hentry
        rcases hentry with hold | hnew
        · exact (hpassed entry hold).imp_left (List.mem_cons_of_mem _)
        · left
          simp only [List.zipIdx_singleton, List.mem_singleton] at hnew
          simp [hnew]
      have hinside : ∀ position ∈ (done.length + skipped.length) :: used,
          position < (done ++ skipped ++ [b]).length := by
        intro position hposition
        rcases List.mem_cons.mp hposition with rfl | hold
        · simp
        · have := hused _ hold
          simp only [List.length_append]
          omega
      rw [hsearch]
      simpa using ih hrest hafter htaken hinside

/-- On sorted lists the scan is the search through all items. -/
theorem firstAfterReference_eq (has : as.Pairwise (fun a a' => left a ≤ left a'))
    (hbs : bs.Pairwise (fun b b' => right b ≤ right b')) :
    firstAfterReference left right bs as [] = firstAfter left right as bs := by
  have hall : firstAfterReference left right ([] ++ bs) as [] = firstAfter left right as bs := by
    apply firstAfterReference_eq_from left right has hbs
    · simp
    · simp
  rwa [List.nil_append] at hall

/-! ## No matching is longer -/

/-- A matching: no item is used more often than it occurs, and no pair goes back in time. -/
structure ForwardMatching (as : List α) (bs : List β) (pairs : List (α × β)) : Prop where
  left_used : (pairs.map Prod.fst).Subperm as
  right_used : (pairs.map Prod.snd).Subperm bs
  forward : ∀ pair ∈ pairs, left pair.1 ≤ right pair.2

variable {left right}

/-- A pair starts before `t` or ends at or after `t`. -/
theorem ForwardMatching.length_le_threshold (h : ForwardMatching left right as bs pairs) (t : τ) :
    pairs.length ≤ as.countP (fun a => left a < t) + bs.countP (fun b => t ≤ right b) := by
  have hleft : pairs.countP (fun pair => left pair.1 < t) ≤ as.countP (fun a => left a < t) := by
    have hcount := h.left_used.countP_le (fun a => left a < t)
    rwa [List.countP_map] at hcount
  have hright : pairs.countP (fun pair => ¬left pair.1 < t) ≤
      bs.countP (fun b => t ≤ right b) := by
    have hcount := h.right_used.countP_le (fun b => t ≤ right b)
    rw [List.countP_map] at hcount
    refine le_trans (List.countP_mono_left ?_) hcount
    intro pair hpair hlate
    rw [decide_eq_true_eq, not_lt] at hlate
    exact decide_eq_true (le_trans hlate (h.forward pair hpair))
  have hsplit := List.length_eq_countP_add_countP (fun pair => left pair.1 < t) (l := pairs)
  simp only [decide_eq_true_eq] at hsplit
  omega

theorem ForwardMatching.length_le_left (h : ForwardMatching left right as bs pairs) :
    pairs.length ≤ as.length := by
  have hlength := h.left_used.length_le
  rwa [List.length_map] at hlength

/-- The scan keeps both lists in order. -/
theorem firstAfter_sublists (as : List α) (bs : List β) :
    ((firstAfter left right as bs).map Prod.fst).Sublist as ∧
      ((firstAfter left right as bs).map Prod.snd).Sublist bs := by
  induction as generalizing bs with
  | nil => exact ⟨List.Sublist.refl _, List.nil_sublist _⟩
  | cons a rest ih =>
    rw [firstAfter]
    cases hremaining : bs.dropWhile (fun b => right b < left a) with
    | nil => exact ⟨List.nil_sublist _, List.nil_sublist _⟩
    | cons b after =>
      obtain ⟨hfst, hsnd⟩ := ih after
      refine ⟨hfst.cons_cons a, (hsnd.cons_cons b).trans ?_⟩
      rw [← hremaining]
      exact List.dropWhile_sublist _

theorem length_firstAfter_le_right (as : List α) (bs : List β) :
    (firstAfter left right as bs).length ≤ bs.length := by
  have hlength := (@firstAfter_sublists α β τ _ left right as bs).2.length_le
  rwa [List.length_map] at hlength

/-- The scan pairs the whole first list or meets the bound at some time. -/
theorem length_firstAfter_eq (has : as.Pairwise (fun a a' => left a ≤ left a'))
    (hbs : bs.Pairwise (fun b b' => right b ≤ right b')) :
    (firstAfter left right as bs).length = as.length ∨
      ∃ t, (firstAfter left right as bs).length =
        as.countP (fun a => left a < t) + bs.countP (fun b => t ≤ right b) := by
  induction as generalizing bs with
  | nil => exact .inl rfl
  | cons a rest ih =>
    obtain ⟨hfirst, hrest⟩ := List.pairwise_cons.mp has
    obtain ⟨skipped, hbs_eq, hskipped⟩ := exists_dropWhile_lt left right a bs
    have hnone : (a :: rest).countP (fun a' => left a' < left a) = 0 := by
      apply List.countP_eq_zero.mpr
      intro a' ha'
      rw [decide_eq_true_eq, not_lt]
      rcases List.mem_cons.mp ha' with rfl | htail
      · exact le_rfl
      · exact hfirst a' htail
    have hearly : ∀ t, left a ≤ t → skipped.countP (fun b => t ≤ right b) = 0 := by
      intro t ht
      apply List.countP_eq_zero.mpr
      intro b hb
      rw [decide_eq_true_eq, not_le]
      exact lt_of_lt_of_le (hskipped b hb) ht
    rw [firstAfter]
    cases hremaining : bs.dropWhile (fun b => right b < left a) with
    | nil =>
      -- nothing at or after the head: the bound is zero at its time
      rw [hremaining, List.append_nil] at hbs_eq
      subst hbs_eq
      right
      exact ⟨left a, by rw [hnone, hearly _ le_rfl]; rfl⟩
    | cons b after =>
      rw [hremaining] at hbs_eq
      subst hbs_eq
      obtain ⟨-, hsorted, -⟩ := List.pairwise_append.mp hbs
      obtain ⟨hleast, hafter⟩ := List.pairwise_cons.mp hsorted
      have hb := le_of_dropWhile_eq_cons left right hremaining
      rcases ih hrest hafter with hall | ⟨t, ht⟩
      · left
        rw [List.length_cons, List.length_cons, hall]
      · right
        by_cases hcase : t ≤ right b
        · -- every later item counts for `t`, so all of them are paired and the head's time does it
          have hlate : ∀ t', t' ≤ right b → after.countP (fun b => t' ≤ right b) = after.length := by
            intro t' ht'
            apply List.countP_eq_length.mpr
            intro b' hb'
            exact decide_eq_true (le_trans ht' (hleast b' hb'))
          have hle := @length_firstAfter_le_right α β τ _ left right rest after
          rw [hlate t hcase] at ht
          refine ⟨left a, ?_⟩
          rw [List.length_cons, hnone, List.countP_append, hearly _ le_rfl,
            List.countP_cons_of_pos (by simpa using hb), hlate _ hb]
          omega
        · have hlt := not_le.mp hcase
          refine ⟨t, ?_⟩
          rw [List.length_cons, List.countP_append, hearly t (le_of_lt (lt_of_le_of_lt hb hlt)),
            List.countP_cons_of_pos (by simpa using lt_of_le_of_lt hb hlt),
            List.countP_cons_of_neg (by simpa using hlt)]
          omega

/-- No matching has more pairs than the scan. -/
theorem length_le_firstAfter (has : as.Pairwise (fun a a' => left a ≤ left a'))
    (hbs : bs.Pairwise (fun b b' => right b ≤ right b'))
    (h : ForwardMatching left right as bs pairs) :
    pairs.length ≤ (firstAfter left right as bs).length := by
  rcases length_firstAfter_eq has hbs with hall | ⟨t, ht⟩
  · rw [hall]
    exact h.length_le_left
  · rw [ht]
    exact h.length_le_threshold t

/-! ## Taking the best that is left -/

/-- Each item of the first list takes, in order, an item that it prefers to all others that are
    left, until one of the lists is used up. -/
inductive BestChoices (prefers : α → β → β → Prop) : List α → List β → List (α × β) → Prop
  | noneLeft (as : List α) : BestChoices prefers as [] []
  | served (bs : List β) : BestChoices prefers [] bs []
  | choose {a : α} {as : List α} {b : β} {bs others : List β} {pairs : List (α × β)}
      (taken : bs.Perm (b :: others)) (best : ∀ b' ∈ others, prefers a b b')
      (next : BestChoices prefers as others pairs) :
      BestChoices prefers (a :: as) bs ((a, b) :: pairs)

namespace BestChoices

variable {prefers : α → β → β → Prop} {as : List α} {bs : List β} {pairs : List (α × β)}

theorem length_eq (h : BestChoices prefers as bs pairs) :
    pairs.length = min as.length bs.length := by
  induction h with
  | noneLeft as => exact (Nat.min_zero _).symm
  | served bs => exact (Nat.zero_min _).symm
  | choose taken best next ih =>
    rw [List.length_cons, ih, List.length_cons, taken.length_eq, List.length_cons,
      Nat.add_min_add_right]

/-- The order of the second list does not matter. -/
theorem of_perm {bs' : List β} (h : BestChoices prefers as bs pairs) (hperm : bs.Perm bs') :
    BestChoices prefers as bs' pairs := by
  cases h with
  | noneLeft => rw [List.nil_perm.mp hperm]; exact .noneLeft as
  | served => exact .served bs'
  | choose taken best next => exact .choose (hperm.symm.trans taken) best next

/-- The items of the first list are served in order. -/
theorem map_fst_eq (h : BestChoices prefers as bs pairs) :
    pairs.map Prod.fst = as.take pairs.length := by
  induction h with
  | noneLeft as => rfl
  | served bs => rfl
  | choose taken best next ih => rw [List.map_cons, ih, List.length_cons, List.take_succ_cons]

/-- What is neither taken before a choice nor by it, and that the choice is preferred to it. -/
theorem exists_others {before after : List (α × β)} {a : α} {b : β}
    (h : BestChoices prefers as bs (before ++ (a, b) :: after)) :
    ∃ others, bs.Perm (before.map Prod.snd ++ b :: others) ∧ ∀ b' ∈ others, prefers a b b' := by
  induction before generalizing as bs with
  | nil =>
    cases h with
    | choose taken best next => exact ⟨_, taken, best⟩
  | cons first before ih =>
    cases h with
    | choose taken best next =>
      obtain ⟨others, hperm, hbest⟩ := ih next
      exact ⟨others, taken.trans (hperm.cons _), hbest⟩

end BestChoices

end Xprobe.Foundation
