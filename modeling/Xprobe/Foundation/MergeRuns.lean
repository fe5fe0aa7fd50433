import Xprobe.Foundation.StableSort

/-!
# Merging the runs of a sorted list

A loop over a sorted list that combines an item with the last result when the two belong together,
and starts a new result otherwise. In a sorted list the items of a key are next to each other, so
the loop leaves one result for every key, combined from all items of that key in order.

What a result says about its items is a relation `Total` between a list of items and a result. It
has to hold of an item alone and to go on when a further item is combined; the rules below carry it
to the whole list.
-/

namespace Xprobe.Foundation

variable {α ε κ : Type}

/-! ## The loop -/

/-- One round of the loop. -/
def mergeStep (same : α → α → Prop) [DecidableRel same] (combine : α → α → Except ε α)
    (merged : List α) (item : α) : Except ε (List α) :=
  match merged.getLast? with
  | none => .ok (merged ++ [item])
  | some previous =>
    if same previous item then do
      let combined ← combine previous item
      return merged.dropLast ++ [combined]
    else .ok (merged ++ [item])

def mergeRuns (same : α → α → Prop) [DecidableRel same] (combine : α → α → Except ε α)
    (items : List α) : Except ε (List α) :=
  items.foldlM (mergeStep same combine) []

variable {same : α → α → Prop} [DecidableRel same] {combine : α → α → Except ε α}

theorem mergeStep_nil (item : α) : mergeStep same combine [] item = .ok [item] := rfl

variable {front : List α} {previous item : α}

theorem mergeStep_same (h : same previous item) :
    mergeStep same combine (front ++ [previous]) item =
      (do let combined ← combine previous item; return front ++ [combined]) := by
  rw [mergeStep, List.getLast?_concat]
  simp only [if_pos h, List.dropLast_concat]

theorem mergeStep_other (h : ¬same previous item) :
    mergeStep same combine (front ++ [previous]) item = .ok (front ++ [previous] ++ [item]) := by
  rw [mergeStep, List.getLast?_concat]
  simp only [if_neg h]

/-! ## What the loop keeps -/

section Totals

variable [LinearOrder κ] (key : α → κ) (Total : List α → α → Prop)

def ofKey (items : List α) (k : κ) : List α := items.filter (key · = k)

/-- The results for the items seen so far: one for every key, in order of the keys. -/
structure Merges (seen merged : List α) : Prop where
  sorted : merged.Pairwise (key · < key ·)
  keys : ∀ k, (∃ result ∈ merged, key result = k) ↔ ∃ item ∈ seen, key item = k
  totals : ∀ result ∈ merged, Total (ofKey key seen (key result)) result

/-- Combining makes totals of totals. -/
structure Combines (same : α → α → Prop) (combine : α → α → Except ε α) (items : List α) :
    Prop where
  same_iff : ∀ {a b}, same a b ↔ key a = key b
  single : ∀ item ∈ items, Total [item] item
  combined : ∀ {run previous result}, ∀ item ∈ items, Total run previous →
    key previous = key item → combine previous item = .ok result →
    Total (run ++ [item]) result ∧ key result = key item

variable {key Total}

theorem Merges.nil : Merges key Total [] [] :=
  { sorted := .nil
    keys := fun _ => by simp
    totals := fun _ h => absurd h List.not_mem_nil }

variable {seen : List α}

/-- The last result has the greatest key. -/
theorem Merges.key_le_last {last : α} (h : Merges key Total seen (front ++ [last]))
    (hitem : item ∈ seen) :
    key item ≤ key last := by
  obtain ⟨result, hresult, hkey⟩ := (h.keys (key item)).mpr ⟨item, hitem, rfl⟩
  rw [← hkey]
  rcases List.mem_append.mp hresult with hfront | hlast
  · exact ((List.pairwise_append.mp h.sorted).2.2 result hfront last (by simp)).le
  · rw [List.mem_singleton.mp hlast]

theorem ofKey_append_of_ne {k : κ} (h : key item ≠ k) :
    ofKey key (seen ++ [item]) k = ofKey key seen k := by
  simp [ofKey, List.filter_append, h]

theorem ofKey_append_self (seen : List α) (item : α) :
    ofKey key (seen ++ [item]) (key item) = ofKey key seen (key item) ++ [item] := by
  simp [ofKey, List.filter_append]

variable {merged : List α}

/-- An item of a new key starts a result of its own. -/
theorem Merges.push (h : Merges key Total seen merged) (hsingle : Total [item] item)
    (hnew : ∀ result ∈ merged, key result < key item) :
    Merges key Total (seen ++ [item]) (merged ++ [item]) := by
  have hseen : ofKey key seen (key item) = [] := by
    refine List.filter_eq_nil_iff.mpr ?_
    intro earlier hearlier hkey
    obtain ⟨result, hresult, heq⟩ := (h.keys (key earlier)).mpr ⟨earlier, hearlier, rfl⟩
    have hlt := hnew result hresult
    rw [heq, of_decide_eq_true hkey] at hlt
    exact lt_irrefl _ hlt
  refine ⟨?_, ?_, ?_⟩
  · refine List.pairwise_append.mpr ⟨h.sorted, List.pairwise_singleton _ _, ?_⟩
    intro result hresult last hlast
    rw [List.mem_singleton.mp hlast]
    exact hnew result hresult
  · intro k
    simp only [List.mem_append, List.mem_singleton, or_and_right, exists_or, h.keys k]
  · intro result hresult
    rcases List.mem_append.mp hresult with hold | hlast
    · rw [ofKey_append_of_ne (hnew result hold).ne']
      exact h.totals result hold
    · rw [List.mem_singleton.mp hlast, ofKey_append_self, hseen]
      exact hsingle

/-- A further item of the last key goes into the last result. -/
theorem Merges.replace (h : Merges key Total seen (front ++ [previous])) {result : α}
    (hkey : key previous = key item) (hresult : key result = key item)
    (htotal : Total (ofKey key seen (key item) ++ [item]) result) :
    Merges key Total (seen ++ [item]) (front ++ [result]) := by
  obtain ⟨hfront, -, hlast⟩ := List.pairwise_append.mp h.sorted
  have hbefore : ∀ earlier ∈ front, key earlier < key item := by
    intro earlier hearlier
    rw [← hkey]
    exact hlast earlier hearlier previous (by simp)
  refine ⟨?_, ?_, ?_⟩
  · refine List.pairwise_append.mpr ⟨hfront, List.pairwise_singleton _ _, ?_⟩
    intro earlier hearlier last hmem
    rw [List.mem_singleton.mp hmem, hresult]
    exact hbefore earlier hearlier
  · intro k
    have hkeys := h.keys k
    simp only [List.mem_append, List.mem_singleton, or_and_right, exists_or, exists_eq_left,
      hkey, hresult] at hkeys ⊢
    rw [← hkeys, or_assoc, or_self]
  · intro other hother
    rcases List.mem_append.mp hother with hold | hmem
    · rw [ofKey_append_of_ne (hbefore other hold).ne']
      exact h.totals other (List.mem_append_left _ hold)
    · rw [List.mem_singleton.mp hmem, hresult, ofKey_append_self]
      exact htotal

/-! ## One round and the whole loop -/

variable {items : List α}

/-- A round goes on with the results, or it fails to combine the items of one key so far with the
    next item of that key. -/
theorem Merges.step (hcombines : Combines key Total same combine items)
    (h : Merges key Total seen merged) (hitem : item ∈ items)
    (hsorted : ∀ earlier ∈ seen, key earlier ≤ key item) :
    (∃ merged', mergeStep same combine merged item = .ok merged' ∧
        Merges key Total (seen ++ [item]) merged') ∨
      ∃ failure previous, mergeStep same combine merged item = .error failure ∧
        Total (ofKey key seen (key item)) previous ∧ combine previous item = .error failure := by
  rcases List.eq_nil_or_concat' merged with rfl | ⟨front, previous, rfl⟩
  · refine .inl ⟨[item], mergeStep_nil item, ?_⟩
    exact h.push (hcombines.single item hitem) fun _ hresult => absurd hresult List.not_mem_nil
  · by_cases hsame : same previous item
    · have hkey := hcombines.same_iff.mp hsame
      have htotal := h.totals previous (by simp)
      rw [hkey] at htotal
      rw [mergeStep_same hsame]
      cases hcombine : combine previous item with
      | error failure => exact .inr ⟨failure, previous, rfl, htotal, hcombine⟩
      | ok result =>
        obtain ⟨hnext, hresult⟩ := hcombines.combined item hitem htotal hkey hcombine
        exact .inl ⟨_, rfl, h.replace hkey hresult hnext⟩
    · refine .inl ⟨_, mergeStep_other hsame, h.push (hcombines.single item hitem) ?_⟩
      -- the key of the item is new: it is not below a key seen before, and not the last one
      intro result hresult
      obtain ⟨earlier, hearlier, heq⟩ := (h.keys (key result)).mp ⟨result, hresult, rfl⟩
      obtain ⟨last, hlastSeen, hlast⟩ := (h.keys (key previous)).mp ⟨previous, by simp, rfl⟩
      have hle : key previous ≤ key item := hlast ▸ hsorted last hlastSeen
      have hne : key previous ≠ key item := fun heq => hsame (hcombines.same_iff.mpr heq)
      have hresultLe : key result ≤ key previous := heq ▸ h.key_le_last hearlier
      exact hresultLe.trans_lt (lt_of_le_of_ne hle hne)

/-- The loop leaves one result for every key, or it fails at an item that cannot be combined with
    the earlier items of its key. -/
theorem Merges.loop {rest : List α} (hcombines : Combines key Total same combine items)
    (h : Merges key Total seen merged) (hitems : ∀ item ∈ rest, item ∈ items)
    (hsorted : SortedBy key (seen ++ rest)) :
    (∃ merged', rest.foldlM (mergeStep same combine) merged = .ok merged' ∧
        Merges key Total (seen ++ rest) merged') ∨
      ∃ failure before item after previous,
        rest.foldlM (mergeStep same combine) merged = .error failure ∧
        seen ++ rest = before ++ item :: after ∧
        Total (ofKey key before (key item)) previous ∧ combine previous item = .error failure := by
  induction rest generalizing seen merged with
  | nil =>
    rw [List.append_nil]
    exact .inl ⟨merged, rfl, h⟩
  | cons item rest ih =>
    have hbefore : ∀ earlier ∈ seen, key earlier ≤ key item := by
      intro earlier hearlier
      exact (List.pairwise_append.mp hsorted).2.2 earlier hearlier item List.mem_cons_self
    rcases h.step hcombines (hitems item List.mem_cons_self) hbefore with
      ⟨merged', hstep, hmerges⟩ | ⟨failure, previous, hstep, htotal, hcombine⟩
    · rw [List.append_cons] at hsorted ⊢
      rw [List.foldlM_cons, hstep]
      exact ih hmerges (fun later hlater => hitems later (List.mem_cons_of_mem _ hlater)) hsorted
    · refine .inr ⟨failure, seen, item, rest, previous, ?_, rfl, htotal, hcombine⟩
      rw [List.foldlM_cons, hstep]
      rfl

theorem mergeRuns_cases (hcombines : Combines key Total same combine items)
    (hsorted : SortedBy key items) :
    (∃ merged, mergeRuns same combine items = .ok merged ∧ Merges key Total items merged) ∨
      ∃ failure before item after previous, mergeRuns same combine items = .error failure ∧
        items = before ++ item :: after ∧
        Total (ofKey key before (key item)) previous ∧ combine previous item = .error failure :=
  @Merges.loop _ _ _ _ _ _ _ _ _ [] [] items items hcombines .nil (fun _ h => h) hsorted

/-! ## Order of the input -/

/-- Totals of the same items in any order are the same result. -/
theorem Merges.unique {items' merged' : List α} (h : Merges key Total items merged)
    (h' : Merges key Total items' merged') (hperm : items.Perm items')
    (hunique : ∀ {run run' result result'}, Total run result → Total run' result' →
      run.Perm run' → result = result') : merged = merged' := by
  have hsub : ∀ {xs ys rs ss : List α}, Merges key Total xs rs → Merges key Total ys ss →
      xs.Perm ys → ∀ result ∈ rs, result ∈ ss := by
    intro xs ys rs ss hx hy hxy result hresult
    obtain ⟨item, hitem, hkey⟩ := (hx.keys _).mp ⟨result, hresult, rfl⟩
    obtain ⟨other, hother, hsame⟩ := (hy.keys (key result)).mpr ⟨item, hxy.subset hitem, hkey⟩
    have htotal := hy.totals other hother
    rw [hsame] at htotal
    have heq : result = other := hunique (hx.totals result hresult) htotal (hxy.filter _)
    exact heq ▸ hother
  have hnodup : ∀ {rs : List α}, rs.Pairwise (key · < key ·) → rs.Nodup := by
    intro rs hsorted
    refine hsorted.imp ?_
    rintro a b hlt rfl
    exact lt_irrefl _ hlt
  have hresults : merged.Perm merged' :=
    (List.perm_ext_iff_of_nodup (hnodup h.sorted) (hnodup h'.sorted)).mpr fun result =>
      ⟨hsub h h' hperm result, hsub h' h hperm.symm result⟩
  refine hresults.eq_of_pairwise ?_ h.sorted h'.sorted
  intro a b _ _ hab hba
  exact absurd (hab.trans hba) (lt_irrefl _)

end Totals

end Xprobe.Foundation
