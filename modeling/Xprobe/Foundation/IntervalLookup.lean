import Xprobe.Foundation.StableSort

/-!
# Looking a point up in sorted intervals

A table of intervals `[start, stop)` is ordered by the starts, and a lookup inspects one candidate:
the last interval that starts at or before the point. `finds_iff_not_hiddenAt` says for which points
of a table that is enough, and `unhidden_iff` for which tables it is enough at every point: no
interval may reach past a later one whose end comes before the next start.
-/

namespace Xprobe.Foundation

variable {α : Type*} {start stop : α → ℕ} {limit : ℕ} {l : List α}

def lastStarting (start : α → ℕ) (l : List α) (point : ℕ) : Option α :=
  (l.takeWhile (fun a => start a ≤ point)).getLast?

/-- Where the next interval starts; after the last interval, where the points end. -/
def nextStart (start : α → ℕ) (limit : ℕ) (after : List α) : ℕ :=
  (after.head?.map start).getD limit

/-- The last interval that starts before the point ends before it, and an earlier one does not. -/
def HiddenAt (start stop : α → ℕ) (l : List α) (point : ℕ) : Prop :=
  ∃ before b after, l = before ++ b :: after ∧ start b ≤ point ∧ stop b ≤ point ∧
    (∀ a ∈ after, point < start a) ∧ ∃ a ∈ before, point < stop a

/-- An interval that reaches past a later one is followed by another start in time. -/
def Unhidden (start stop : α → ℕ) (limit : ℕ) (l : List α) : Prop :=
  ∀ before b after, l = before ++ b :: after →
    ∀ a ∈ before, stop a ≤ stop b ∨ nextStart start limit after ≤ stop b

/-- Intervals whose ends are ordered like their starts do not hide each other. -/
theorem Unhidden.of_sorted (h : SortedBy stop l) : Unhidden start stop limit l := by
  rintro before b after rfl a ha
  exact Or.inl ((List.pairwise_append.mp h).2.2 a ha b List.mem_cons_self)

/-- In a sorted table the candidate splits the starts at the point. -/
theorem lastStarting_eq_some_iff (hsorted : SortedBy start l) {point : ℕ} {b : α} :
    lastStarting start l point = some b ↔
      ∃ before after, l = before ++ b :: after ∧ start b ≤ point ∧
        ∀ a ∈ after, point < start a := by
  rw [lastStarting, List.getLast?_eq_some_iff]
  constructor
  · rintro ⟨before, htake⟩
    have hsplit : l.takeWhile (fun a => start a ≤ point) ++
        l.dropWhile (fun a => start a ≤ point) = l := List.takeWhile_append_dropWhile
    rw [htake, List.append_assoc, List.singleton_append] at hsplit
    refine ⟨before, _, hsplit.symm, ?_, ?_⟩
    · have hb : b ∈ l.takeWhile (fun a => start a ≤ point) := by simp [htake]
      simpa using List.mem_takeWhile_imp hb
    · intro a ha
      -- the first interval after the candidate starts behind the point, and the others later
      have hafter : SortedBy start (l.dropWhile (fun a => start a ≤ point)) :=
        hsorted.sublist (List.dropWhile_sublist _)
      have hhead := List.head?_dropWhile_not (fun a => start a ≤ point) l
      cases hdrop : l.dropWhile (fun a => start a ≤ point) with
      | nil => simp [hdrop] at ha
      | cons next rest =>
        rw [hdrop] at ha hafter hhead
        have hnext : point < start next := by simpa using hhead
        rcases List.mem_cons.mp ha with rfl | hrest
        · exact hnext
        · exact hnext.trans_le ((List.pairwise_cons.mp hafter).1 a hrest)
  · rintro ⟨before, after, rfl, hb, hafter⟩
    have hbefore : ∀ a ∈ before, start a ≤ point := fun a ha =>
      ((List.pairwise_append.mp hsorted).2.2 a ha b List.mem_cons_self).trans hb
    refine ⟨before, ?_⟩
    rw [List.takeWhile_append_of_pos (by simpa using hbefore),
      List.takeWhile_cons_of_pos (by simpa), List.takeWhile_eq_nil_iff.mpr]
    intro hne
    simpa using hafter _ (List.getElem_mem hne)

/-- For one table and one point: the candidate contains the point, if any interval does, exactly when
    the point is not hidden. -/
theorem finds_iff_not_hiddenAt (hsorted : SortedBy start l) {point : ℕ} :
    (∀ a ∈ l, start a ≤ point → point < stop a →
      ∃ b, lastStarting start l point = some b ∧ point < stop b) ↔
      ¬ HiddenAt start stop l point := by
  constructor
  · rintro hfinds ⟨before, b, after, rfl, hb, hend, hafter, a, ha, hcovers⟩
    have hab : start a ≤ start b := (List.pairwise_append.mp hsorted).2.2 a ha b List.mem_cons_self
    obtain ⟨found, hfound, hpoint⟩ := hfinds a (by simp [ha]) (hab.trans hb) hcovers
    rw [(lastStarting_eq_some_iff hsorted).mpr ⟨before, after, rfl, hb, hafter⟩] at hfound
    cases hfound
    exact absurd hpoint (not_lt.mpr hend)
  · intro hhidden a ha hstart hcovers
    cases hcandidate : lastStarting start l point with
    | none =>
      -- the first interval starts no later than `a`
      rw [lastStarting, List.getLast?_eq_none_iff, List.takeWhile_eq_nil_iff] at hcandidate
      cases l with
      | nil => simp at ha
      | cons first rest =>
        have hfirst : start first ≤ start a := by
          rcases List.mem_cons.mp ha with rfl | hrest
          · exact le_rfl
          · exact (List.pairwise_cons.mp hsorted).1 a hrest
        have hlate : point < start first := by simpa using hcandidate (by simp)
        exact absurd (hfirst.trans hstart) (not_le.mpr hlate)
    | some b =>
      obtain ⟨before, after, rfl, hb, hafter⟩ := (lastStarting_eq_some_iff hsorted).mp hcandidate
      refine ⟨b, rfl, ?_⟩
      by_contra hend
      rw [List.mem_append, List.mem_cons] at ha
      rcases ha with hbefore | rfl | hlater
      · exact hhidden ⟨before, b, after, rfl, hb, not_lt.mp hend, hafter, a, hbefore, hcovers⟩
      · exact hend hcovers
      · exact absurd hstart (not_le.mpr (hafter a hlater))

/-- A table hides no interval exactly when it hides no point. -/
theorem unhidden_iff (hsorted : SortedBy start l) (hstop : ∀ a ∈ l, start a ≤ stop a)
    (hlimit : ∀ a ∈ l, start a < limit) :
    Unhidden start stop limit l ↔ ∀ point < limit, ¬ HiddenAt start stop l point := by
  constructor
  · rintro hunhidden point hpoint ⟨before, b, after, rfl, hb, hend, hafter, a, ha, hcovers⟩
    rcases hunhidden before b after rfl a ha with hpast | hnext
    · exact absurd (hcovers.trans_le hpast) (not_lt.mpr hend)
    · cases after with
      | nil => exact absurd hpoint (not_lt.mpr (hnext.trans hend))
      | cons first rest =>
        exact absurd (hafter first List.mem_cons_self) (not_lt.mpr (hnext.trans hend))
  · rintro hpoints before b after rfl a ha
    by_contra hhidden
    obtain ⟨hpast, hgap⟩ := not_or.mp hhidden
    rw [not_le] at hpast hgap
    -- the point right behind `b` is covered by `a`, and its candidate is `b`
    have hafter : ∀ next ∈ after, stop b < start next := by
      intro next hnext
      have htail := (List.pairwise_append.mp hsorted).2.1.tail
      cases after with
      | nil => simp at hnext
      | cons first rest =>
        have hfirst : stop b < start first := hgap
        rcases List.mem_cons.mp hnext with rfl | hrest
        · exact hfirst
        · exact hfirst.trans_le ((List.pairwise_cons.mp htail).1 next hrest)
    have hbound : stop b < limit := by
      cases after with
      | nil => exact hgap
      | cons first rest => exact hgap.trans (hlimit first (by simp))
    exact hpoints (stop b) hbound
      ⟨before, b, after, rfl, hstop b (by simp), le_rfl, hafter, a, ha, hpast⟩

end Xprobe.Foundation
